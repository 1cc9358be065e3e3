import EdvrPatch.Common.Text

/-! The settings file as the merge reads it (`iniedit.cpp`): physical lines,
what each of them is, and the value a name has. -/
namespace EdvrPatch.Ini

def isBlank (c : Char) : Bool :=
  c == ' ' || c == '\t'

def isMarker (c : Char) : Bool :=
  c == '#' || c == ';'

def isNewline (c : Char) : Bool :=
  c == '\n' || c == '\r'

def isSpace (c : Char) : Bool :=
  c == ' ' || (9 ≤ c.toNat && c.toNat ≤ 13)

def trim (s : Text) : Text :=
  (s.dropWhile isBlank).rdropWhile isBlank

/-- An inline comment is a marker with a blank in front of it, so never the
first character. -/
def stripInlineComment : Text → Text
  | [] => []
  | [c] => [c]
  | a :: b :: rest =>
    if isBlank a && isMarker b then [a] else a :: stripInlineComment (b :: rest)

def isKeyChar (c : Char) : Bool :=
  !(isSpace c || c == '#' || c == ';' || c == '[' || c == ']')

def isKeyToken (s : Text) : Bool :=
  s != [] && s.length ≤ 96 && s.all isKeyChar

def splitKeyValue (body : Text) : Option (Text × Text) :=
  if '=' ∉ body then none
  else
    let key := trim (body.takeWhile (· != '='))
    if ¬isKeyToken key then none
    else some (key, trim (stripInlineComment (body.dropWhile (· != '=')).tail))

def sameKey (a b : Text) : Prop :=
  lower a = lower b

instance (a b : Text) : Decidable (sameKey a b) :=
  inferInstanceAs (Decidable (_ = _))

inductive LineKind where
  | blank
  | comment
  | sect
  | key
  | commentedKey
  deriving DecidableEq, Repr

structure IniLine where
  kind : LineKind := .blank
  text : Text := []
  eol : Text := []
  sect : Text := []
  key : Text := []
  value : Text := []
  deriving DecidableEq, Repr

abbrev IniDoc := List IniLine

/-- The line terminator at the front: `\r`, `\n`, `\r\n` or none. -/
def takeEol : Text → Text
  | c :: rest =>
    if c = '\r' then
      if rest.head? = some '\n' then ['\r', '\n'] else ['\r']
    else if c = '\n' then ['\n'] else []
  | [] => []

/-- The physical lines with their terminators. `fuel` is the length of the
text: every line takes at least one character. -/
def splitLines : Nat → Text → List (Text × Text)
  | 0, _ => []
  | fuel + 1, text =>
    if text = [] then []
    else
      let line := text.takeWhile (!isNewline ·)
      let rest := text.dropWhile (!isNewline ·)
      (line, takeEol rest) :: splitLines fuel (rest.drop (takeEol rest).length)

def byteOrderMark : Text :=
  [Char.ofNat 0xEF, Char.ofNat 0xBB, Char.ofNat 0xBF]

def dropMark (text : Text) : Text :=
  if byteOrderMark.isPrefixOf text then text.drop 3 else text

def readLine (sect : Text) (text eol : Text) : IniLine :=
  let body := trim text
  match body with
  | [] => { kind := .blank, text := text, eol := eol, sect := sect }
  | first :: rest =>
    if first = '[' then
      if ']' ∈ rest then
        { kind := .sect, text := text, eol := eol, sect := rest.takeWhile (· != ']') }
      else { kind := .comment, text := text, eol := eol, sect := sect }
    else if isMarker first then
      match splitKeyValue (trim (body.dropWhile isMarker)) with
      | some (key, value) =>
        { kind := .commentedKey, text := text, eol := eol, sect := sect, key := key,
          value := value }
      | none => { kind := .comment, text := text, eol := eol, sect := sect }
    else
      match splitKeyValue body with
      | some (key, value) =>
        { kind := .key, text := text, eol := eol, sect := sect, key := key, value := value }
      | none => { kind := .comment, text := text, eol := eol, sect := sect }

def readLines : Text → List (Text × Text) → IniDoc
  | _, [] => []
  | sect, (text, eol) :: later =>
    readLine sect text eol :: readLines (readLine sect text eol).sect later

def iniParse (text : Text) : IniDoc :=
  readLines [] (splitLines (dropMark text).length (dropMark text))

def textOf (doc : IniDoc) : Text :=
  doc.flatMap fun line => line.text ++ line.eol

def dominantEol (doc : IniDoc) : Text :=
  ((doc.find? (·.eol != [])).map (·.eol)).getD ['\r', '\n']

def dottedName (sect key : Text) : Text :=
  if sect = [] then key else sect ++ '.' :: key

def splitDotted (dotted : Text) : Text × Text :=
  if '.' ∈ dotted then
    (dotted.takeWhile (· != '.'), (dotted.dropWhile (· != '.')).tail)
  else ([], dotted)

/-- What a document says about a setting: a live value, or only that the key
exists. -/
structure Effective where
  present : Bool := false
  value : Text := []
  known : Bool := false
  deriving DecidableEq, Repr

namespace IniLine

def declares (line : IniLine) (sect key : Text) : Prop :=
  (line.kind = .key ∨ line.kind = .commentedKey) ∧
    sameKey line.sect sect ∧ sameKey line.key key

instance (line : IniLine) (sect key : Text) : Decidable (line.declares sect key) :=
  inferInstanceAs (Decidable (_ ∧ _))

end IniLine

/-- The last live line wins; a commented one only shows that the key exists. -/
def Effective.see (sect key : Text) (e : Effective) (line : IniLine) : Effective :=
  if line.declares sect key then
    if line.kind = .key then { present := true, value := line.value, known := true }
    else { e with known := true }
  else e

def effectiveOf (doc : IniDoc) (sect key : Text) : Effective :=
  doc.foldl (Effective.see sect key) {}

def iniValue (text dotted fallback : Text) : Text :=
  let name := splitDotted dotted
  let e := effectiveOf (iniParse text) name.1 name.2
  if e.present then e.value else fallback

end EdvrPatch.Ini
