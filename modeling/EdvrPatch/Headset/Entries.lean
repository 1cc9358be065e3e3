import EdvrPatch.Common.Text

/-! Per-headset settings (`openxr_resolution_entries.h`): the sanitiser of names, the
grammar of a list, the matching rule, and the two edits the menu makes. -/
namespace EdvrPatch.Headset

def kHeadsetTokenMax : Nat := 30
def kHeadsetEntryMax : Nat := 8

/-- The values one entry of a setting may have. No value is read from more than five
digits, whatever the range. -/
structure ValueRange where
  min : Nat
  max : Nat
  fiveDigits : max ≤ 99999

def resolutionWidths : ValueRange := ⟨1, 16384, by decide⟩

def trimDegrees : ValueRange := ⟨0, 30, by decide⟩

def cString (text : Text) : Text :=
  text.takeWhile (· != '\x00')

def isUpper (c : Char) : Bool :=
  'A' ≤ c && c ≤ 'Z'

def isKept (c : Char) : Bool :=
  isUpper c || ('a' ≤ c && c ≤ 'z') || ('0' ≤ c && c ≤ '9')

/-- One byte of a name: what was written so far, and whether a dash is due. -/
def tokenStep (state : Text × Bool) (c : Char) : Text × Bool :=
  if isKept c then
    ((if state.2 && !state.1.isEmpty then state.1 ++ ['-'] else state.1) ++ [c.toLower], false)
  else (state.1, true)

def headsetToken (raw : Text) : Text :=
  (((cString raw).foldl tokenStep ([], false)).1.take kHeadsetTokenMax).rdropWhile (· == '-')

def headsetKey (runtimeToken systemToken : Text) : Text :=
  if systemToken = [] then runtimeToken else runtimeToken ++ '/' :: systemToken

structure HeadsetEntry where
  runtime : Text
  system : Text
  value : Nat
  deriving DecidableEq, Repr

def isBlank (c : Char) : Bool :=
  c == ' ' || c == '\t'

def trimSpaces (text : Text) : Text :=
  (text.dropWhile isBlank).rdropWhile isBlank

def isDigit (c : Char) : Bool :=
  '0' ≤ c && c ≤ '9'

def digitsValue (digits : Text) : Nat :=
  digits.foldl (fun value c => value * 10 + (c.toNat - '0'.toNat)) 0

def parseKey (head : Text) : Option (Text × Text) :=
  if '/' ∉ head then some (headsetToken (trimSpaces head), [])
  else
    let system := headsetToken (trimSpaces (head.dropWhile (· != '/')).tail)
    if system = [] then none
    else some (headsetToken (trimSpaces (head.takeWhile (· != '/'))), system)

def parseHeadsetEntry (range : ValueRange) (piece : Text) : Option HeadsetEntry :=
  let text := trimSpaces piece
  if ':' ∉ text then none
  else
    let digits := trimSpaces (text.rtakeWhile (· != ':'))
    if digits = [] ∨ 5 < digits.length ∨ ¬digits.all isDigit then none
    else if digitsValue digits < range.min ∨ range.max < digitsValue digits then none
    else
      match parseKey (text.rdropWhile (· != ':')).dropLast with
      | none => none
      | some (runtime, system) =>
        if runtime = [] then none else some ⟨runtime, system, digitsValue digits⟩

/-- One piece of a list: the entries so far, and the pieces that were skipped. -/
def entriesStep (range : ValueRange) (state : List HeadsetEntry × List Text) (part : Text) :
    List HeadsetEntry × List Text :=
  let piece := trimSpaces part
  if piece = [] then state
  else
    match parseHeadsetEntry range piece with
    | none => (state.1, state.2 ++ [piece])
    | some entry =>
      if kHeadsetEntryMax ≤ state.1.length then (state.1, state.2 ++ [piece])
      else (state.1 ++ [entry], state.2)

def parseHeadsetEntries (range : ValueRange) (value : Text) : List HeadsetEntry × List Text :=
  ((cString value).splitOnP (· == ',')).foldl (entriesStep range) ([], [])

def HeadsetEntry.isKeyed (e : HeadsetEntry) (rt sys : Text) : Bool :=
  e.runtime == rt && e.system == sys

/-- The value for the worn headset, and the rule that gave it: 1 for the pair itself, 2
for its runtime, 0 for none. -/
def resolveHeadsetValue (entries : List HeadsetEntry) (rt sys : Text) : Nat × Nat :=
  if rt = [] then (0, 0)
  else
    match if sys = [] then none else entries.find? (·.isKeyed rt sys) with
    | some e => (e.value, 1)
    | none =>
      match entries.find? (·.isKeyed rt []) with
      | some e => (e.value, 2)
      | none => (0, 0)

def formatHeadsetEntry (entry : HeadsetEntry) : Text :=
  headsetKey entry.runtime entry.system ++ ':' :: Nat.toDigits 10 entry.value

def formatHeadsetEntries : List HeadsetEntry → Text
  | [] => []
  | [entry] => formatHeadsetEntry entry
  | entry :: next :: rest => formatHeadsetEntry entry ++ ',' :: ' ' :: formatHeadsetEntries (next :: rest)

/-- One entry of the old list: those kept so far, and whether the new value was placed. -/
def mergeStep (rt sys : Text) (value : Nat) (state : List HeadsetEntry × Bool) (e : HeadsetEntry) :
    List HeadsetEntry × Bool :=
  if e.isKeyed rt sys then
    if state.2 then state else (state.1 ++ [{ e with value := value }], true)
  else (state.1 ++ [e], state.2)

def mergeHeadsetEntry (range : ValueRange) (list rt sys : Text) (value : Nat) (out : Text) : Bool × Text :=
  if rt = [] ∨ value < range.min ∨ range.max < value then (false, out)
  else
    let (kept, placed) := (parseHeadsetEntries range list).1.foldl (mergeStep rt sys value) ([], false)
    if placed then (true, formatHeadsetEntries kept)
    else if kHeadsetEntryMax ≤ kept.length then (false, out)
    else (true, formatHeadsetEntries (kept ++ [⟨rt, sys, value⟩]))

def removeHeadsetEntry (range : ValueRange) (list rt sys : Text) : Text :=
  formatHeadsetEntries ((parseHeadsetEntries range list).1.filter fun e => !e.isKeyed rt sys)

end EdvrPatch.Headset
