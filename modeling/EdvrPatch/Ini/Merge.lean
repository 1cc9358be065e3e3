import EdvrPatch.Ini.Document
import EdvrPatch.Lib.Store

/-! The three-way merge of settings files (`mergeIni`): the new shipped text
with the user's values written back into it. -/
namespace EdvrPatch.Ini

open Lib

/-! ### Rewriting a line -/

/-- The blanks in front of a line, and the rest; a line of blanks alone is all
rest. -/
def splitIndent (line : Text) : Text × Text :=
  if line.dropWhile isBlank = [] then ([], line)
  else (line.takeWhile isBlank, line.dropWhile isBlank)

def inlineComment (rest : Text) : Text :=
  if (rest.head?.map isMarker).getD false then rest
  else rest.drop (stripInlineComment rest).length

/-- A line less its indentation, and less the markers that comment it out. -/
def bareLine (line : Text) (uncomment : Bool) : Text :=
  let body := (splitIndent line).2
  if uncomment then (body.dropWhile isMarker).dropWhile isBlank else body

/-- One line with a new value, the indentation, key, spacing and inline comment
kept. -/
def rewriteValue (line newValue : Text) (uncomment : Bool) : Text :=
  let indent := (splitIndent line).1
  let work := bareLine line uncomment
  if '=' ∉ work then indent ++ work
  else
    let tail := (work.dropWhile (· != '=')).tail
    let spacing := if tail.takeWhile isBlank = [] then [' '] else tail.takeWhile isBlank
    let comment := inlineComment (tail.dropWhile isBlank)
    let out := indent ++ (work.takeWhile (· != '=') ++ ['=']) ++ spacing ++ newValue
    if comment = [] then out else out.rdropWhile isBlank ++ ' ' :: trim comment

def commentOut (line : Text) : Text :=
  if line.dropWhile isBlank = [] then line
  else line.takeWhile isBlank ++ '#' :: line.dropWhile isBlank

/-! ### Annotations of the new file -/

def commentBody (line : IniLine) : Text :=
  trim ((trim line.text).dropWhile isMarker)

def annotation (word : Text) (line : IniLine) : Option Text :=
  if word.isPrefixOf (lower (commentBody line)) then
    some (trim ((commentBody line).drop word.length))
  else none

def cutAt (word : Text) : Text → Option (Text × Text)
  | [] => if word = [] then some ([], []) else none
  | c :: rest =>
    if word.isPrefixOf (c :: rest) then some ([], (c :: rest).drop word.length)
    else (cutAt word rest).map fun (before, after) => (c :: before, after)

/-- Annotations stack up to the key line they stand above; any blank line or
header forgets them. -/
def annotate {α β : Type} (read : IniLine → Option α) (file : IniLine → β → α → β) :
    List α → β → IniDoc → β
  | _, out, [] => out
  | pending, out, line :: later =>
    match line.kind with
    | .comment => annotate read file (pending ++ (read line).toList) out later
    | .blank | .sect => annotate read file [] out later
    | .key | .commentedKey => annotate read file [] (pending.foldl (file line) out) later

/-- The values a setting used to ship as its default, all in lower case. -/
def retiredDefaults (doc : IniDoc) : List (Text × Text) :=
  annotate ( annotation "retired-default:".toList)
    (fun line out value => (lower (dottedName line.sect line.key), lower value) :: out) [] [] doc

structure MovedTarget where
  sect : Text := []
  key : Text := []
  oldDefault : Text := []
  deriving DecidableEq, Repr

/-- The old name and its old default, from `moved-from: name (default value)`. -/
def movedFrom (spec : Text) : Text × Text :=
  match cutAt "(default".toList spec with
  | none => (spec, [])
  | some (before, after) =>
    if ')' ∈ after then (trim before, trim (after.takeWhile (· != ')'))) else (spec, [])

def movedKeys (doc : IniDoc) : Store Text MovedTarget :=
  annotate (fun line => ( annotation "moved-from:".toList line).map movedFrom)
    (fun line out (old : Text × Text) =>
      Store.set out (lower old.1) { sect := line.sect, key := line.key, oldDefault := old.2 })
    [] [] doc

/-! ### The edits -/

structure MergeReport where
  followed : List Text := []
  kept : List Text := []
  adopted : List Text := []
  retired : List Text := []
  carried : List Text := []
  removed : List Text := []
  forced : List Text := []
  twoWay : Bool := false
  deriving DecidableEq, Repr

/-- What is to be done to the new file: lines to replace, by index, and lines to
append to a section, by its lower-case name. -/
structure Edits where
  replacements : Store Nat Text := []
  appended : Store Text (List Text) := []
  report : MergeReport := {}
  deriving DecidableEq, Repr

namespace Edits

def replace (m : Edits) (i : Nat) (text : Text) : Edits :=
  { m with replacements := m.replacements.set i text }

def append (m : Edits) (sect : Text) (line : Text) : Edits :=
  let block := (m.appended.get (lower sect)).getD []
  { m with appended := m.appended.set (lower sect) (block ++ [line]) }

end Edits

def lastIndex (p : IniLine → Bool) : IniDoc → Option Nat
  | [] => none
  | line :: later =>
    match lastIndex p later with
    | some i => some (i + 1)
    | none => if p line then some 0 else none

def lastDeclared (doc : IniDoc) (sect key : Text) : Option Nat :=
  lastIndex (fun line => line.declares sect key) doc

def lastLive (doc : IniDoc) (sect key : Text) : Option Nat :=
  lastIndex (fun line => line.kind = .key ∧ line.declares sect key) doc

def lastLineOfSection (doc : IniDoc) (sect : Text) : Option Nat :=
  lastIndex (fun line => sameKey line.sect sect) doc

def rewritten (doc : IniDoc) (i : Nat) (value : Text) : Text :=
  let line := doc.getD i {}
  rewriteValue line.text value (line.kind = .commentedKey)

def assignText (name value : Text) : Text :=
  name ++ " = ".toList ++ value

/-- The ids met so far, and the settings in the order they were met first. -/
structure KeyList where
  seen : List Text := []
  keys : List (Text × Text) := []
  deriving DecidableEq, Repr

def KeyList.add (list : KeyList) (line : IniLine) : KeyList :=
  let id := lower (dottedName line.sect line.key)
  if id ∈ list.seen then list
  else { seen := id :: list.seen, keys := list.keys ++ [(line.sect, line.key)] }

def isSetting (line : IniLine) : Bool :=
  line.kind = .key ∨ line.kind = .commentedKey

/-- Every setting the user's file has an opinion about, and with a base also the
ones it shipped live and the user's file no longer has. -/
def userKeys (userDoc baseDoc : IniDoc) (haveBase : Bool) : List (Text × Text) :=
  let own := (userDoc.filter isSetting).foldl KeyList.add {}
  let all := if userDoc.any isSetting && haveBase then
      (baseDoc.filter (·.kind = .key)).foldl KeyList.add own
    else own
  all.keys

def retiredNote : Text :=
  "# carried over from your edvr.ini; this version no longer uses it".toList

def carriedNote : Text :=
  "# carried over from your edvr.ini; not an EDVR setting this version knows".toList

structure Sources where
  next : IniDoc
  user : IniDoc
  base : IniDoc
  haveBase : Bool

namespace Sources

variable (docs : Sources)

/-- A value for a setting the new file does not have stays in its section, with
a note. -/
def carry (m : Edits) (sect key : Text) : Edits :=
  let u := effectiveOf docs.user sect key
  let b := effectiveOf docs.base sect key
  if ¬u.present then m
  else
    let line := assignText (dottedName sect key) u.value
    let m := (m.append sect (if b.known then retiredNote else carriedNote)).append sect
      (assignText key u.value)
    { m with report :=
        if b.known then { m.report with retired := m.report.retired ++ [line] }
        else { m.report with carried := m.report.carried ++ [line] } }

/-- A setting the new file does not know: it moved, or it is carried. -/
def mergeUnknown (m : Edits) (sect key : Text) : Edits :=
  let u := effectiveOf docs.user sect key
  let dotted := dottedName sect key
  match (movedKeys docs.next).get (lower dotted) with
  | none => docs.carry m sect key
  | some move =>
    if ¬u.present then m
    else if move.oldDefault ≠ [] ∧ u.value = move.oldDefault then
      { m with report := { m.report with
          adopted := m.report.adopted ++ [assignText dotted u.value ++
            "  (retired default; ".toList ++ dottedName move.sect move.key ++
            " ships its own)".toList] } }
    else if (effectiveOf docs.user move.sect move.key).present then docs.carry m sect key
    else
      match lastDeclared docs.next move.sect move.key with
      | none => docs.carry m sect key
      | some target =>
        let m := m.replace target (rewritten docs.next target u.value)
        { m with report := { m.report with
            followed := m.report.followed ++ [assignText dotted u.value ++ "  ->  ".toList ++
              dottedName move.sect move.key] } }

/-- The user's own value goes into the line the reader would use; a line they
deleted is commented out. -/
def mergeChanged (m : Edits) (sect key : Text) : Edits :=
  let u := effectiveOf docs.user sect key
  let dotted := dottedName sect key
  if u.present then
    match lastDeclared docs.next sect key with
    | none => m
    | some target =>
      let m := m.replace target (rewritten docs.next target u.value)
      { m with report := { m.report with kept := m.report.kept ++ [assignText dotted u.value] } }
  else
    match lastLive docs.next sect key with
    | none => m
    | some target =>
      let m := m.replace target (commentOut (docs.next.getD target {}).text)
      { m with report := { m.report with removed := m.report.removed ++ [dotted] } }

def changedByUser (sect key : Text) : Prop :=
  let u := effectiveOf docs.user sect key
  let b := effectiveOf docs.base sect key
  u.present ≠ b.present ∨ (u.present = true ∧ u.value ≠ b.value)

instance (sect key : Text) : Decidable (docs.changedByUser sect key) :=
  inferInstanceAs (Decidable (_ ∨ _))

def mergeKnown (m : Edits) (sect key : Text) : Edits :=
  let u := effectiveOf docs.user sect key
  let b := effectiveOf docs.base sect key
  let n := effectiveOf docs.next sect key
  let dotted := dottedName sect key
  if u.present = true ∧ (lower dotted, lower u.value) ∈ retiredDefaults docs.next then
    { m with report := { m.report with
        adopted := m.report.adopted ++ [assignText dotted u.value ++
          "  (a default this version retired; it now ships ".toList ++ n.value ++
          " -- set it again if you meant it)".toList] } }
  else if docs.changedByUser sect key then docs.mergeChanged m sect key
  else if b.known ∧ (n.present ≠ b.present ∨ n.value ≠ b.value) then
    { m with report := { m.report with
        adopted := m.report.adopted ++
          [assignText dotted (if n.present then n.value else "(default)".toList)] } }
  else m

/-- One setting of the user's file; the installer's own keys are left alone. -/
def mergeKey (forced : List (Text × Text)) (m : Edits) (sk : Text × Text) : Edits :=
  if lower (dottedName sk.1 sk.2) ∈ forced.map (fun f => lower f.1) then m
  else if (effectiveOf docs.next sk.1 sk.2).known then docs.mergeKnown m sk.1 sk.2
  else docs.mergeUnknown m sk.1 sk.2

def forceKey (m : Edits) (f : Text × Text) : Edits :=
  let name := splitDotted f.1
  let m := match lastDeclared docs.next name.1 name.2 with
    | some target => m.replace target (rewritten docs.next target f.2)
    | none => m.append name.1 (assignText name.2 f.2)
  { m with report := { m.report with forced := m.report.forced ++ [assignText f.1 f.2] } }

def edits (forced : List (Text × Text)) : Edits :=
  forced.foldl docs.forceKey
    ((userKeys docs.user docs.base docs.haveBase).foldl (docs.mergeKey forced)
      { report := { twoWay := !docs.haveBase } })

end Sources

/-! ### Writing the merged file -/

def blockOf (eol : Text) (m : Edits) (sect : Text) : IniDoc :=
  ((m.appended.get sect).getD []).map fun text => { kind := .comment, text := text, eol := eol }

/-- A block goes in front of the blank lines a section ends with. -/
def insertBlock (out block : IniDoc) : IniDoc :=
  out.rdropWhile (·.kind = .blank) ++ block ++ out.rtakeWhile (·.kind = .blank)

/-- The sections with something to append, in the order of their names. -/
def appendedSections (m : Edits) : List Text :=
  (m.appended.map Prod.fst).insertionSort (· ≤ ·)

/-- The section whose block goes after a line: the one the line is the last of. -/
def appendAfter (next : IniDoc) (m : Edits) (i : Nat) : Option Text :=
  (appendedSections m).find? fun sect => lastLineOfSection next sect = some i

def emitLine (eol : Text) (m : Edits) (i : Nat) (line : IniLine) : IniLine :=
  match m.replacements.get i with
  | some text => { line with text := text, eol := if line.eol = [] then eol else line.eol }
  | none => line

def emitStep (next : IniDoc) (eol : Text) (m : Edits) (out : IniDoc) (i : Nat) (line : IniLine) :
    IniDoc :=
  let out := out ++ [emitLine eol m i line]
  match appendAfter next m i with
  | some sect => insertBlock out (blockOf eol m sect)
  | none => out

def emitFrom (next : IniDoc) (eol : Text) (m : Edits) : Nat → IniDoc → IniDoc → IniDoc
  | _, out, [] => out
  | i, out, line :: later => emitFrom next eol m (i + 1) (emitStep next eol m out i line) later

def orphanBlock (eol : Text) (m : Edits) (sect : Text) : IniDoc :=
  { kind := .blank, eol := eol } ::
    { kind := .sect, text := '[' :: sect ++ [']'], eol := eol } :: blockOf eol m sect

def orphans (next : IniDoc) (eol : Text) (m : Edits) : IniDoc :=
  ((appendedSections m).filter fun sect => lastLineOfSection next sect = none).flatMap
    (orphanBlock eol m)

def emit (next : IniDoc) (m : Edits) : Text :=
  let eol := dominantEol next
  textOf (emitFrom next eol m 0 [] next ++ orphans next eol m)

def readSources (next user : Text) (base : Option Text) : Sources :=
  { next := iniParse next
    user := iniParse user
    base := iniParse (base.getD next)
    haveBase := base.isSome }

def mergeIni (next user : Text) (base : Option Text) (forced : List (Text × Text)) :
    Text × MergeReport :=
  let docs := readSources next user base
  let m := docs.edits forced
  (emit docs.next m, m.report)

end EdvrPatch.Ini
