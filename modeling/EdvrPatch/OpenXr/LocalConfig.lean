import EdvrPatch.Common.Text

/-! The start-up configuration beside the native runtime (`native_local_config.h`). A
file with a fault anywhere configures nothing. -/
namespace EdvrPatch.OpenXr

inductive LocalConfigResult
  | absent
  | ready
  | invalid
  deriving DecidableEq, Repr

structure LocalConfig where
  loader : Text := []
  graphics : Text := []
  runtime : Text := []
  separateDevice : Bool := false
  frameThreadPriorityHigh : Bool := true
  frameEndOverlap : Bool := true
  deriving DecidableEq, Repr

def localConfigUsesSystemRuntime (value : Text) : Bool :=
  value = "system".toList

def wideSize (value : Text) : Nat :=
  (value.map fun c => if c.toNat < 0x10000 then 1 else 2).sum

def localConfigAbsolute (value : Text) : Bool :=
  3 < wideSize value && wideSize value < 32768 && !value.contains '\x00' &&
    match value with
    | drive :: ':' :: slash :: _ => drive.isAlpha && (slash == '\\' || slash == '/')
    | _ => false

inductive LocalFile
  | notFound
  | directory
  | unreadable
  | bytes (content : ByteArray)

def localConfigReadFile : LocalFile → Option ByteArray
  | .bytes content => if content.size ≤ 65536 then some content else none
  | _ => none

/-- The lines of a text. A carriage return and the line feed behind it end one line. -/
def localLines : Text → List Text
  | [] => [[]]
  | '\r' :: '\n' :: rest => [] :: localLines rest
  | c :: rest =>
    if c = '\r' ∨ c = '\n' then [] :: localLines rest
    else
      match localLines rest with
      | [] => [[c]]
      | line :: later => (c :: line) :: later

def isBlank (c : Char) : Bool :=
  c == ' ' || c == '\t'

def trimBlanks (s : Text) : Text :=
  (s.dropWhile isBlank).rdropWhile isBlank

structure LocalReading where
  inSection : Bool := false
  version : Bool := false
  loader : Bool := false
  graphics : Bool := false
  runtime : Bool := false
  separate : Bool := false
  priority : Bool := false
  overlap : Bool := false
  candidate : LocalConfig := {}
  deriving DecidableEq, Repr

namespace LocalReading

def readKey (r : LocalReading) (key value : Text) : Option LocalReading :=
  if key = "version".toList then
    if r.version ∨ value ≠ "1".toList then none else some { r with version := true }
  else if key = "loader".toList then
    if r.loader ∨ ¬localConfigAbsolute value then none
    else some { r with loader := true, candidate := { r.candidate with loader := value } }
  else if key = "graphics".toList then
    if r.graphics ∨ ¬localConfigAbsolute value then none
    else some { r with graphics := true, candidate := { r.candidate with graphics := value } }
  else if key = "runtime".toList then
    if r.runtime ∨ ¬localConfigUsesSystemRuntime value ∧ ¬localConfigAbsolute value then none
    else some { r with runtime := true, candidate := { r.candidate with runtime := value } }
  else if key = "separate_device".toList then
    if r.separate ∨ value ≠ "1".toList then none
    else some { r with separate := true, candidate := { r.candidate with separateDevice := true } }
  else if key = "frame_thread_priority".toList then
    if r.priority ∨ value ≠ "high".toList ∧ value ≠ "normal".toList then none
    else some { r with
      priority := true
      candidate := { r.candidate with frameThreadPriorityHigh := value = "high".toList } }
  else if key = "frame_end_overlap".toList then
    if r.overlap ∨ value ≠ "on".toList ∧ value ≠ "off".toList then none
    else some { r with
      overlap := true
      candidate := { r.candidate with frameEndOverlap := value = "on".toList } }
  else none

def readLine (r : LocalReading) (line : Text) : Option LocalReading :=
  let line := trimBlanks line
  if line = [] then some r
  else if line = "[openxr]".toList then
    if r.inSection then none else some { r with inSection := true }
  else if ¬r.inSection then none
  else if '=' ∉ line then none
  else
    let key := trimBlanks (line.takeWhile (· != '='))
    let value := trimBlanks ((line.dropWhile (· != '=')).drop 1)
    if key = [] ∨ value = [] then none else r.readKey key value

def complete (r : LocalReading) : Bool :=
  r.inSection && r.version && r.loader && r.graphics && r.runtime && r.separate

end LocalReading

def parseLocalConfig (text : Text) : Option LocalConfig :=
  ((localLines text).foldlM LocalReading.readLine {}).bind fun r =>
    if r.complete then some r.candidate else none

def readLocalConfig (file : LocalFile) : LocalConfigResult × LocalConfig :=
  match file with
  | .notFound => (.absent, {})
  | .directory => (.invalid, {})
  | file =>
    match localConfigReadFile file with
    | none => (.invalid, {})
    | some bytes =>
      if bytes.data.contains 0 then (.invalid, {})
      else
        match bytes.utf8Decode? with
        | none => (.invalid, {})
        | some text =>
          -- nothing to convert is an error as well
          if text.isEmpty then (.invalid, {})
          else
            match parseLocalConfig text.toList with
            | none => (.invalid, {})
            | some candidate => (.ready, candidate)

/-! ### Lines -/

def OneLine (s : Text) : Prop :=
  ∀ c ∈ s, c ≠ '\r' ∧ c ≠ '\n'

instance (s : Text) : Decidable (OneLine s) :=
  inferInstanceAs (Decidable (∀ c ∈ s, c ≠ '\r' ∧ c ≠ '\n'))

theorem oneLine_pair {key value : Text} (first : OneLine key) (second : OneLine value) :
    OneLine (key ++ '=' :: value) := by
  intro c member
  rcases List.mem_append.mp member with member | member
  · exact first c member
  rcases List.mem_cons.mp member with rfl | member
  · decide
  · exact second c member

theorem localLines_cons {c : Char} (plain : c ≠ '\r' ∧ c ≠ '\n') (rest : Text) :
    localLines (c :: rest) = match localLines rest with
      | [] => [[c]]
      | line :: later => (c :: line) :: later := by
  rw [localLines]
  · rw [if_neg (not_or.mpr plain)]
  · rintro rest' rfl
    exact absurd rfl plain.1

theorem localLines_append {line : Text} (oneLine : OneLine line) (rest : Text) :
    localLines (line ++ '\r' :: '\n' :: rest) = line :: localLines rest := by
  induction line with
  | nil => rfl
  | cons c line ih =>
    rw [List.cons_append, localLines_cons (oneLine c List.mem_cons_self),
      ih fun d member => oneLine d (List.mem_cons_of_mem _ member)]

theorem localLines_oneLine (text : Text) : ∀ line ∈ localLines text, OneLine line := by
  induction text using localLines.induct with
  | case1 =>
    intro line member
    rw [List.mem_singleton.mp member]
    nofun
  | case2 rest ih =>
    intro line member
    rcases List.mem_cons.mp member with rfl | member
    · nofun
    · exact ih line member
  | case3 c rest _ ends ih =>
    rw [localLines, if_pos ends]
    · intro line member
      rcases List.mem_cons.mp member with rfl | member
      · nofun
      · exact ih line member
    · assumption
  | case4 c rest _ plain none_ ih =>
    rw [localLines_cons (not_or.mp plain), none_]
    intro line member
    rw [List.mem_singleton.mp member]
    intro d here
    rw [List.mem_singleton.mp here]
    exact not_or.mp plain
  | case5 c rest _ plain line later found ih =>
    rw [localLines_cons (not_or.mp plain), found]
    rw [found] at ih
    intro line' member
    rcases List.mem_cons.mp member with rfl | member
    · intro d here
      rcases List.mem_cons.mp here with rfl | here
      · exact not_or.mp plain
      · exact ih line List.mem_cons_self d here
    · exact ih line' (List.mem_cons_of_mem _ member)

theorem OneLine.subset {s t : Text} (oneLine : OneLine t) (inside : s ⊆ t) : OneLine s :=
  fun c member => oneLine c (inside member)

theorem trimBlanks_subset (s : Text) : trimBlanks s ⊆ s :=
  fun _ member => (List.dropWhile_suffix _).subset ((List.rdropWhile_prefix _ _).subset member)

structure Trimmed (s : Text) : Prop where
  head : s.head?.map isBlank = some false
  last : s.getLast?.map isBlank = some false

namespace Trimmed

variable {s t : Text}

theorem ne_nil (trimmed : Trimmed s) : s ≠ [] := by
  rintro rfl
  cases trimmed.head

theorem trim (trimmed : Trimmed s) : trimBlanks s = s := by
  have front : s.dropWhile isBlank = s := by
    obtain ⟨c, rest, rfl⟩ := List.exists_cons_of_ne_nil trimmed.ne_nil
    have solid : isBlank c = false := by simpa using trimmed.head
    exact List.dropWhile_cons_of_neg (by simp [solid])
  unfold trimBlanks
  rw [front, List.rdropWhile_eq_self_iff]
  intro ne
  have last := trimmed.last
  rw [List.getLast?_eq_some_getLast ne] at last
  simpa using last

theorem pair (first : Trimmed s) (second : Trimmed t) : Trimmed (s ++ '=' :: t) := by
  obtain ⟨c, rest, rfl⟩ := List.exists_cons_of_ne_nil first.ne_nil
  refine ⟨first.head, ?_⟩
  rw [List.getLast?_append, List.getLast?_cons, List.getLast?_eq_some_getLast second.ne_nil,
    Option.getD_some, Option.some_or, ← List.getLast?_eq_some_getLast second.ne_nil]
  exact second.last

end Trimmed

/-! ### The bytes of a text -/

theorem zero_mem_encodeChar {c : Char} : 0 ∈ String.utf8EncodeChar c ↔ c = '\x00' := by
  have long (large : c.utf8Size ≠ 1) : c ≠ '\x00' := by
    rintro rfl
    exact large rfl
  rcases Char.utf8Size_eq c with one | two | three | four
  · rw [String.utf8EncodeChar_eq_singleton one, List.mem_singleton]
    have small := UInt32.le_iff_toNat_le.mp (Char.utf8Size_eq_one_iff.mp one)
    change c.val.toNat ≤ 127 at small
    refine ⟨fun zero => ?_, by rintro rfl; rfl⟩
    have none_ := congrArg UInt8.toNat zero
    change 0 = c.val.toNat % 256 at none_
    exact Char.ext (UInt32.toNat_inj.mp (show c.val.toNat = 0 by omega))
  · rw [String.utf8EncodeChar_eq_cons_cons two]
    simp [long (by omega), eq_comm (a := (0 : UInt8))]
  · rw [String.utf8EncodeChar_eq_cons_cons_cons three]
    simp [long (by omega), eq_comm (a := (0 : UInt8))]
  · rw [String.utf8EncodeChar_eq_cons_cons_cons_cons four]
    simp [long (by omega), eq_comm (a := (0 : UInt8))]

theorem zero_mem_encode (text : Text) : text.utf8Encode.data.contains 0 = text.contains '\x00' := by
  unfold List.utf8Encode
  simp [zero_mem_encodeChar]

theorem readLocalConfig_encode (text : Text) (config : LocalConfig) :
    readLocalConfig (.bytes text.utf8Encode) = (.ready, config) ↔
      text.utf8Encode.size ≤ 65536 ∧ '\x00' ∉ text ∧ text ≠ [] ∧
        parseLocalConfig text = some config := by
  have decoded : text.utf8Encode.utf8Decode? = some text.toArray := List.utf8Decode?_utf8Encode
  unfold readLocalConfig localConfigReadFile
  dsimp only
  by_cases small : text.utf8Encode.size ≤ 65536
  · rw [if_pos small]
    dsimp only
    rw [zero_mem_encode, decoded]
    by_cases zero : '\x00' ∈ text
    · simp [zero]
    · by_cases none_ : text = []
      · simp [none_]
      · cases parsed : parseLocalConfig text <;> simp [small, zero, none_, parsed]
  · simp [small]

/-! ### What a configuration says -/

def LocalPath (value : Text) : Prop :=
  localConfigAbsolute value = true ∧ OneLine value

namespace LocalReading

structure Checked (r : LocalReading) : Prop where
  loader : r.loader = true → LocalPath r.candidate.loader
  graphics : r.graphics = true → LocalPath r.candidate.graphics

variable {r r' : LocalReading}

theorem readKey_checked {key value : Text} (oneLine : OneLine value)
    (read : r.readKey key value = some r') (checked : r.Checked) : r'.Checked := by
  unfold readKey at read
  split at read
  · split at read
    · cases read
    · cases read
      exact ⟨checked.loader, checked.graphics⟩
  split at read
  · split at read
    · cases read
    · rename_i taken
      cases read
      exact ⟨fun _ => ⟨by simpa using (not_or.mp taken).2, oneLine⟩, checked.graphics⟩
  split at read
  · split at read
    · cases read
    · rename_i taken
      cases read
      exact ⟨checked.loader, fun _ => ⟨by simpa using (not_or.mp taken).2, oneLine⟩⟩
  repeat
    split at read
    · split at read
      · cases read
      · cases read
        exact ⟨checked.loader, checked.graphics⟩
  cases read

theorem readLine_checked {line : Text} (oneLine : OneLine line) (read : r.readLine line = some r')
    (checked : r.Checked) : r'.Checked := by
  unfold readLine at read
  dsimp only at read
  split at read
  · cases read
    exact checked
  split at read
  · split at read
    · cases read
    · cases read
      exact ⟨checked.loader, checked.graphics⟩
  split at read
  · cases read
  split at read
  · cases read
  split at read
  · cases read
  · refine readKey_checked (oneLine.subset fun c member => ?_) read checked
    exact trimBlanks_subset _ ((List.dropWhile_suffix _).subset
      (List.mem_of_mem_drop (trimBlanks_subset _ member)))

theorem readLines_checked {lines : List Text} (oneLine : ∀ line ∈ lines, OneLine line)
    (read : lines.foldlM readLine r = some r') (checked : r.Checked) : r'.Checked := by
  induction lines generalizing r with
  | nil =>
    cases read
    exact checked
  | cons line rest ih =>
    obtain ⟨next, here, read⟩ := Option.bind_eq_some_iff.mp read
    exact ih (fun line' member => oneLine line' (List.mem_cons_of_mem _ member)) read
      (readLine_checked (oneLine line List.mem_cons_self) here checked)

end LocalReading

theorem parseLocalConfig_checked {text : Text} {config : LocalConfig}
    (parsed : parseLocalConfig text = some config) :
    LocalPath config.loader ∧ LocalPath config.graphics := by
  obtain ⟨r, read, done⟩ := Option.bind_eq_some_iff.mp parsed
  split at done
  · rename_i complete
    cases done
    have checked := LocalReading.readLines_checked (localLines_oneLine text) read ⟨nofun, nofun⟩
    unfold LocalReading.complete at complete
    simp only [Bool.and_eq_true] at complete
    obtain ⟨⟨⟨⟨_, loader⟩, graphics⟩, _⟩, _⟩ := complete
    exact ⟨checked.loader loader, checked.graphics graphics⟩
  · cases done

/-! ### A configuration's own lines -/

theorem readLine_pair {r : LocalReading} {key value : Text} (inside : r.inSection = true)
    (bare : '=' ∉ key) (key_ : Trimmed key) (value_ : Trimmed value) :
    r.readLine (key ++ '=' :: value) = r.readKey key value := by
  have line := (key_.pair value_).trim
  have other : ∀ c ∈ key, (c != '=') = true := fun c member => by
    rw [bne_iff_ne]
    rintro rfl
    exact bare member
  have front : (key ++ '=' :: value).takeWhile (· != '=') = key := by
    rw [List.takeWhile_append_of_pos other]
    simp
  have back : (key ++ '=' :: value).dropWhile (· != '=') = '=' :: value := by
    rw [List.dropWhile_append_of_pos other]
    simp
  unfold LocalReading.readLine
  rw [line, if_neg (key_.pair value_).ne_nil, if_neg ?_, if_neg (by simp [inside]), if_neg (by simp)]
  · dsimp only
    rw [front, back, List.drop_one, List.tail_cons, key_.trim, value_.trim,
      if_neg (not_or.mpr ⟨key_.ne_nil, value_.ne_nil⟩)]
  · intro same
    have inside : '=' ∈ "[openxr]".toList := by
      rw [← same]
      simp
    exact absurd inside (by decide)

end EdvrPatch.OpenXr
