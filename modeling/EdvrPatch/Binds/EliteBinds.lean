import EdvrPatch.Common.Text
import EdvrPatch.Lib.Search

/-! One element of Elite's bindings file (`elite_binds.cpp`). The parsers look attributes up
through a parameter: the code's own lookup, or one that also says where it ends. -/
namespace EdvrPatch.Binds

open Lib

def cStr (s : Text) : Text :=
  s.takeWhile (· ≠ '\x00')

def snprintf (size : Nat) (s : Text) : Text :=
  s.take (size - 1)

def sameNoCase (s t : Text) : Bool :=
  lower (cStr s) == lower t

abbrev KeyMap := List (String × String)

def kKeyMap : KeyMap :=
  [("RightArrow", "RIGHT"), ("LeftArrow", "LEFT"), ("UpArrow", "UP"), ("DownArrow", "DOWN"),
    ("Space", "SPACE"), ("Enter", "ENTER"), ("Return", "ENTER"), ("Backspace", "BACKSPACE"),
    ("Tab", "TAB"), ("Escape", "ESCAPE"), ("Insert", "INSERT"), ("Home", "HOME"),
    ("End", "END"), ("Delete", "DELETE"), ("PageUp", "PAGEUP"), ("PageDown", "PAGEDOWN"),
    ("ScrollLock", "SCROLLLOCK"), ("Pause", "PAUSE"), ("NumLock", "NUMLOCK"),
    ("CapsLock", "CAPSLOCK"), ("BackSlash", "BACKSLASH"), ("Slash", "SLASH"),
    ("LeftBracket", "LEFTBRACKET"), ("RightBracket", "RIGHTBRACKET"), ("SemiColon", "SEMICOLON"),
    ("Apostrophe", "APOSTROPHE"), ("Comma", "COMMA"), ("Period", "PERIOD"), ("Grave", "GRAVE"),
    ("Minus", "MINUS"), ("Equals", "EQUALS"), ("Hash", "HASH"), ("Numpad_0", "NUMPAD0"),
    ("Numpad_1", "NUMPAD1"), ("Numpad_2", "NUMPAD2"), ("Numpad_3", "NUMPAD3"),
    ("Numpad_4", "NUMPAD4"), ("Numpad_5", "NUMPAD5"), ("Numpad_6", "NUMPAD6"),
    ("Numpad_7", "NUMPAD7"), ("Numpad_8", "NUMPAD8"), ("Numpad_9", "NUMPAD9"),
    ("Numpad_Multiply", "MULTIPLY"), ("Numpad_Divide", "DIVIDE"), ("Numpad_Add", "ADD"),
    ("Numpad_Subtract", "SUBTRACT"), ("Numpad_Decimal", "DECIMAL"),
    ("PrintScreen", "PRINTSCREEN"), ("Apps", "APPS"), ("Menu", "APPS"), ("Numpad_Enter", "ENTER"),
    ("Oem102", "0xE2")]

def kModMap : KeyMap :=
  [("LeftShift", "SHIFT"), ("RightShift", "SHIFT"), ("LeftControl", "CTRL"),
    ("RightControl", "CTRL"), ("LeftAlt", "ALT"), ("RightAlt", "ALT")]

def kModMainMap : KeyMap :=
  [("LeftShift", "0xA0"), ("RightShift", "0xA1"), ("LeftControl", "0xA2"),
    ("RightControl", "0xA3"), ("LeftAlt", "0xA4"), ("RightAlt", "0xA5")]

def KeyMap.lookup (map : KeyMap) (name : Text) : Option Text :=
  (map.find? fun entry => sameNoCase name entry.1.toList).map fun entry => entry.2.toList

def keyName (eliteKey : Text) : Text :=
  let name := cStr eliteKey
  if "Key_".toList.isPrefixOf name then name.drop 4 else name

def isLetterOrDigit (c : Char) : Bool :=
  'A' ≤ c && c ≤ 'Z' || 'a' ≤ c && c ≤ 'z' || '0' ≤ c && c ≤ '9'

def eliteBindsTranslateKey (eliteKey : Text) (outLen : Nat) : Option Text :=
  let name := keyName eliteKey
  match kKeyMap.lookup name with
  | some ours => some (snprintf outLen ours)
  | none =>
    match name with
    | [c] => if isLetterOrDigit c then some (snprintf outLen [c]) else none
    | f :: d :: _ =>
      if (f = 'F' ∨ f = 'f') ∧ '0' ≤ d ∧ d ≤ '9' then some (snprintf outLen name) else none
    | [] => none

def eliteBindsTranslateKeyEx (eliteKey : Text) (allowModifierMain : Bool) (outLen : Nat) :
    Option (Text × Bool) :=
  match eliteBindsTranslateKey eliteKey outLen with
  | some ours => some (ours, false)
  | none =>
    if allowModifierMain then
      (kModMainMap.lookup (keyName eliteKey)).map fun ours => (snprintf outLen ours, true)
    else none

def needleOf (attr : String) : Text :=
  attr.toList ++ ['=', '"']

/-- An attribute's value after `i`, where the attribute begins within `span`. -/
def attrAfter (text : Text) (i span : Nat) (attr : String) : Option Text :=
  match find text (needleOf attr) i with
  | none => none
  | some at_ =>
    if i + span < at_ then none
    else
      let start := at_ + (needleOf attr).length
      (find text ['"'] start).map fun stop => (text.drop start).take (stop - start)

def openTag (element : Text) : Text :=
  '<' :: element ++ ['>']

def closeTag (element : Text) : Text :=
  '<' :: '/' :: element ++ ['>']

def boundsOf (text element : Text) : Option (Nat × Nat) :=
  (find text (openTag element) 0).map fun el =>
    (el, (find text (closeTag element) el).getD (el + 600))

def tagAfter (text tag : Text) (i : Nat) (inBounds : Nat → Bool) : Option Nat :=
  (find text tag i).filter inBounds

def slotTags : List Text :=
  ["<Primary ".toList, "<Secondary ".toList]

def modifierTag : Text :=
  "<Modifier ".toList

section Parsers

variable {m : Type → Type} [Monad m] (attr : Nat → Nat → String → m (Option Text)) (text : Text)

/-- A keyboard modifier, with the prefix that our table has for it. -/
def modifierAt (mod : Nat) : m (Option Text) := do
  match ← attr mod 120 "Device" with
  | none => return none
  | some device =>
    if sameNoCase device "Keyboard".toList then
      match ← attr mod 160 "Key" with
      | none => return none
      | some key =>
        return some (match kModMap.lookup (keyName key) with
          | some ours => ours ++ ['+']
          | none => [])
    else return none

/-- Up to three modifiers after `i`: their prefix, and whether there is one on a keyboard. -/
def modifiers (bound : Nat) : Nat → Nat → m (Text × Bool)
  | 0, _ => return ([], false)
  | guard + 1, i =>
    match tagAfter text modifierTag i (· ≤ bound) with
    | none => return ([], false)
    | some mod => do
      let own ← modifierAt attr mod
      let (rest, chorded) ← modifiers bound guard (mod + 10)
      return (own.getD [] ++ rest, own.isSome || chorded)

structure ElementAnswer where
  present : Bool
  binding : Option Text
  rawKb : Text
  deriving DecidableEq

def elementSlots (el stop outLen rawKbLen : Nat) : List Text → Text → m (Option Text × Text)
  | [], rawKb => return (none, rawKb)
  | slot :: slots, rawKb =>
    match tagAfter text slot el (· ≤ stop) with
    | none => elementSlots el stop outLen rawKbLen slots rawKb
    | some s => do
      match ← attr s 120 "Device" with
      | none => elementSlots el stop outLen rawKbLen slots rawKb
      | some device =>
        if sameNoCase device "Keyboard".toList then
          match ← attr s 160 "Key" with
          | none => elementSlots el stop outLen rawKbLen slots rawKb
          | some key =>
            match eliteBindsTranslateKey key 32 with
            | none =>
              elementSlots el stop outLen rawKbLen slots
                (if rawKb = [] then snprintf rawKbLen (cStr key) else rawKb)
            | some name =>
              let (pre, _) ← modifiers attr text stop 3 s
              return (some (snprintf outLen (pre ++ name)), rawKb)
        else elementSlots el stop outLen rawKbLen slots rawKb

def parseElementWith (element : Text) (outLen rawKbLen : Nat) : m ElementAnswer :=
  match boundsOf text element with
  | none => return { present := false, binding := none, rawKb := [] }
  | some (el, stop) => do
    let (binding, rawKb) ← elementSlots attr text el stop outLen rawKbLen slotTags []
    return { present := true, binding, rawKb }

/-- Where the slot at `s` ends: at the next slot, or with the element. -/
def slotEnd (s stop : Nat) : Nat :=
  slotTags.foldl (fun slotEnd other => (tagAfter text other (s + 1) (· < slotEnd)).getD slotEnd) stop

structure EliteKeySlot where
  keyboard : Bool
  chorded : Bool
  modifierMain : Bool
  binding : Text
  eliteName : Text
  deriving DecidableEq

def slotOf (device key pre : Text) (chorded allowModifierMain : Bool) : EliteKeySlot :=
  let bare : EliteKeySlot :=
    { keyboard := sameNoCase device "Keyboard".toList, chorded, modifierMain := false, binding := []
      eliteName := snprintf 32 (cStr key) }
  if bare.keyboard then
    match eliteBindsTranslateKeyEx key allowModifierMain 32 with
    | none => bare
    | some (name, modifierMain) => { bare with modifierMain, binding := snprintf 32 (pre ++ name) }
  else bare

def allSlots (el stop : Nat) (allowModifierMain : Bool) : List Text → m (List EliteKeySlot)
  | [] => return []
  | slot :: slots =>
    match tagAfter text slot el (· ≤ stop) with
    | none => allSlots el stop allowModifierMain slots
    | some s => do
      match ← attr s 120 "Device" with
      | none => allSlots el stop allowModifierMain slots
      | some device =>
        match ← attr s 160 "Key" with
        | none => allSlots el stop allowModifierMain slots
        | some key =>
          if key = [] ∨ sameNoCase device "\x7bNoDevice\x7d".toList then
            allSlots el stop allowModifierMain slots
          else
            let (pre, chorded) ← modifiers attr text (slotEnd text s stop) 3 s
            let rest ← allSlots el stop allowModifierMain slots
            return slotOf device key pre chorded allowModifierMain :: rest

structure EliteKeySlots where
  present : Bool
  slots : List EliteKeySlot
  deriving DecidableEq

def parseElementSlotsWith (element : Text) (allowModifierMain : Bool) : m EliteKeySlots :=
  match boundsOf text element with
  | none => return { present := false, slots := [] }
  | some (el, stop) => do
    let slots ← allSlots attr text el stop allowModifierMain slotTags
    return { present := true, slots }

structure PadAnswer where
  present : Bool
  key : Option Text
  modKey : Text
  deriving DecidableEq

/-- The key of a gamepad slot, and that of its chord. `modLen` is given where a chord is
asked for. -/
def padSlots (el stop outLen : Nat) (modLen : Option Nat) : List Text → m (Option (Text × Text))
  | [] => return none
  | slot :: slots =>
    match tagAfter text slot el (· ≤ stop) with
    | none => padSlots el stop outLen modLen slots
    | some s => do
      match ← attr s 120 "Device" with
      | none => padSlots el stop outLen modLen slots
      | some device =>
        if sameNoCase device "GamePad".toList then
          match ← attr s 160 "Key" with
          | none => padSlots el stop outLen modLen slots
          | some key =>
            match tagAfter text modifierTag s (· < slotEnd text s stop), modLen with
            | some mod, some modLen =>
              match ← attr mod 160 "Key" with
              | none => padSlots el stop outLen (some modLen) slots
              | some modKey => return some (snprintf outLen (cStr key), snprintf modLen (cStr modKey))
            | some _, none => padSlots el stop outLen none slots
            | none, some modLen => padSlots el stop outLen (some modLen) slots
            | none, none => return some (snprintf outLen (cStr key), [])
        else padSlots el stop outLen modLen slots

def parsePadWith (element : Text) (outLen : Nat) (modLen : Option Nat) : m PadAnswer :=
  match boundsOf text element with
  | none => return { present := false, key := none, modKey := [] }
  | some (el, stop) => do
    let answer ← padSlots attr text el stop outLen modLen slotTags
    return { present := true, key := answer.map Prod.fst, modKey := (answer.map Prod.snd).getD [] }

end Parsers

def parseElementIn (text element : Text) (outLen rawKbLen : Nat) : ElementAnswer :=
  parseElementWith (m := Id) (attrAfter text) text element outLen rawKbLen

def parseElementSlotsIn (text element : Text) (allowModifierMain : Bool) : EliteKeySlots :=
  parseElementSlotsWith (m := Id) (attrAfter text) text element allowModifierMain

def parsePadIn (text element : Text) (outLen : Nat) (modLen : Option Nat) : PadAnswer :=
  parsePadWith (m := Id) (attrAfter text) text element outLen modLen

example : parseElementIn "<A>\n<Primary Device=\"Keyboard\" Key=\"Key_UpArrow\" />\n</A>".toList ['A'] 32 32 =
    { present := true, binding := some "UP".toList, rawKb := [] } := by decide +kernel

end EdvrPatch.Binds
