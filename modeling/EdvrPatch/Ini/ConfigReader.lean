import EdvrPatch.Ini.Reading
import EdvrPatch.Lib.Store

/-! The game's own reader of the settings file (`Config::parse`), and how far the merge's reader
agrees with it. Both are reduced to the assignments a text makes; they differ in which one answers
to a name. -/
namespace EdvrPatch.Ini

open Lib

/-- The lines `Config::parse` cuts: the terminators after a line are skipped all
at once. -/
def configLines : Nat → Text → List Text
  | 0, _ => []
  | fuel + 1, text =>
    if text = [] then []
    else
      text.takeWhile (!isNewline ·) ::
        configLines fuel ((text.dropWhile (!isNewline ·)).dropWhile isNewline)

/-- One line of the loop, over the open section and the values so far. -/
def configLine (state : Text × Store Text Text) (line : Text) : Text × Store Text Text :=
  match line.dropWhile isBlank with
  | [] => state
  | first :: rest =>
    if isMarker first then state
    else if first = '[' then
      if ']' ∈ rest then (rest.takeWhile (· != ']'), state.2) else state
    else if '=' ∉ first :: rest then state
    else
      let key := trim ((first :: rest).takeWhile (· != '='))
      let value := trim (stripInlineComment ((first :: rest).dropWhile (· != '=')).tail)
      if key = [] then state
      else (state.1, state.2.set (lower (dottedName state.1 key)) value)

/-- `Config::parse` before `auditResolve`: the values it stores, or the old ones
for a file that is too large. -/
def configParse (values : Store Text Text) (text : Text) : Store Text Text :=
  if 2 ^ 20 < text.length then values
  else ((configLines (dropMark text).length (dropMark text)).foldl configLine ([], [])).2

/-! ### Assignments -/

structure Assignment where
  sect : Text
  key : Text
  value : Text
  deriving DecidableEq, Repr

def assignmentOf (at_ line : Text) : Option Assignment :=
  match trim line with
  | [] => none
  | first :: rest =>
    if first = '[' ∨ isMarker first ∨ '=' ∉ first :: rest then none
    else if trim ((first :: rest).takeWhile (· != '=')) = [] then none
    else some
      { sect := at_
        key := trim ((first :: rest).takeWhile (· != '='))
        value := trim (stripInlineComment ((first :: rest).dropWhile (· != '=')).tail) }

def assignments : Text → List Text → List Assignment
  | _, [] => []
  | at_, line :: later =>
    (assignmentOf at_ line).toList ++ assignments (readLine at_ line []).sect later

def Assignment.FiledUnder (name : Text) (a : Assignment) : Prop :=
  lower (dottedName a.sect a.key) = name

def Assignment.At (sect key : Text) (a : Assignment) : Prop :=
  isKeyToken a.key = true ∧ sameKey a.sect sect ∧ sameKey a.key key

instance (name : Text) (a : Assignment) : Decidable (a.FiledUnder name) :=
  inferInstanceAs (Decidable (_ = _))

instance (sect key : Text) (a : Assignment) : Decidable (a.At sect key) :=
  inferInstanceAs (Decidable (_ ∧ _))

def lastThat (p : Assignment → Prop) [DecidablePred p] (list : List Assignment) :
    Option Assignment :=
  (list.filter p).getLast?

variable {p : Assignment → Prop}

theorem lastThat_append [DecidablePred p] (list more : List Assignment) :
    lastThat p (list ++ more) = (lastThat p more).or (lastThat p list) := by
  unfold lastThat
  rw [List.filter_append, List.getLast?_append]

theorem lastThat_toList [DecidablePred p] (a : Option Assignment) :
    lastThat p a.toList = a.filter p := by
  cases a with
  | none => rfl
  | some a =>
    by_cases meets : p a
    · simp [lastThat, meets, Option.filter]
    · simp [lastThat, meets, Option.filter]

theorem assignmentOf_plain {line rest : Text} {first : Char} (body : trim line = first :: rest)
    (notHeader : first ≠ '[') (notMarker : isMarker first = false) (at_ : Text) :
    assignmentOf at_ line =
      if '=' ∉ first :: rest ∨ trim ((first :: rest).takeWhile (· != '=')) = [] then none
      else some
        { sect := at_
          key := trim ((first :: rest).takeWhile (· != '='))
          value := trim (stripInlineComment ((first :: rest).dropWhile (· != '=')).tail) } := by
  unfold assignmentOf
  rw [body]
  by_cases eq : '=' ∈ first :: rest
  · simp [notHeader, notMarker, eq]
  · simp [notHeader, notMarker, eq]

theorem assignmentOf_other {line rest : Text} {first : Char} (body : trim line = first :: rest)
    (other : first = '[' ∨ isMarker first = true) (at_ : Text) : assignmentOf at_ line = none := by
  unfold assignmentOf
  rw [body]
  rcases other with other | other <;> simp [other]

theorem liveAt_eq (at_ line sect key : Text) :
    (readLine at_ line []).liveAt sect key =
      ((assignmentOf at_ line).filter (·.At sect key)).map (·.value) := by
  cases body : trim line with
  | nil =>
    rw [readLine_blank (trim_eq_nil_iff.mp body)]
    simp [assignmentOf, body, IniLine.liveAt]
  | cons first rest =>
    by_cases header : first = '['
    · rw [assignmentOf_other body (.inl header)]
      subst header
      by_cases close : ']' ∈ rest
      · rw [readLine_header body close]
        rfl
      · rw [readLine_unclosed body close]
        rfl
    · cases marker : isMarker first with
      | true =>
        rw [assignmentOf_other body (.inr marker), readLine_marker body marker]
        split <;> rfl
      | false =>
        rw [assignmentOf_plain body header marker, readLine_plain body header marker,
          splitKeyValue_eq]
        generalize trim ((first :: rest).takeWhile (· != '=')) = name
        by_cases eq : '=' ∈ first :: rest
        · by_cases token : isKeyToken name = true
          · have ne : name ≠ [] := by
              rintro rfl
              cases token
            simp [eq, token, ne, IniLine.liveAt, IniLine.declares, Assignment.At, Option.filter]
          · by_cases empty : name = []
            · subst empty
              simp [eq, token, IniLine.liveAt]
            · simp [eq, token, empty, IniLine.liveAt, Assignment.At, Option.filter]
        · simp [eq, IniLine.liveAt]

theorem liveFrom_eq (at_ : Text) (lines : List Text) (sect key : Text) :
    liveFrom at_ lines sect key =
      (lastThat (·.At sect key) (assignments at_ lines)).map (·.value) := by
  induction lines generalizing at_ with
  | nil => rfl
  | cons line lines ih =>
    rw [liveFrom, assignments, lastThat_append, lastThat_toList, ih, liveAt_eq, Option.map_or]

/-! ### The loop of the runtime -/

/-- The runtime takes the blanks off the front of a line only; the rest of them
is no part of anything it reads. -/
theorem configLine_eq (at_ line : Text) (values : Store Text Text) :
    configLine (at_, values) line =
      ((readLine at_ line []).sect,
        match assignmentOf at_ line with
        | some a => values.set (lower (dottedName a.sect a.key)) a.value
        | none => values) := by
  obtain ⟨after, front, blank⟩ : ∃ after : Text, line.dropWhile isBlank = trim line ++ after ∧
      ∀ c ∈ after, isBlank c = true :=
    ⟨(line.dropWhile isBlank).rtakeWhile isBlank, (List.rdropWhile_append_rtakeWhile ..).symm,
      fun c member => List.mem_rtakeWhile_imp member⟩
  unfold configLine
  cases body : trim line with
  | nil =>
    have all := trim_eq_nil_iff.mp body
    rw [List.dropWhile_eq_nil_iff.mpr all, readLine_blank all]
    simp [assignmentOf, body]
  | cons first rest =>
    have apart (c : Char) (notBlank : isBlank c = false) : c ∈ rest ++ after ↔ c ∈ rest := by
      refine ⟨fun member => (List.mem_append.mp member).resolve_right fun inside => ?_,
        fun member => List.mem_append_left _ member⟩
      rw [blank c inside] at notBlank
      cases notBlank
    rw [front, body, List.cons_append]
    dsimp only
    by_cases header : first = '['
    · rw [assignmentOf_other body (.inl header)]
      subst header
      rw [if_neg (by decide), if_pos rfl]
      by_cases close : ']' ∈ rest
      · rw [readLine_header body close, if_pos ((apart ']' rfl).mpr close),
          takeWhile_append_of_mem close]
      · rw [readLine_unclosed body close, if_neg fun h => close ((apart ']' rfl).mp h)]
    · cases marker : isMarker first with
      | true =>
        rw [assignmentOf_other body (.inr marker), readLine_marker body marker, if_pos rfl]
        split <;> rfl
      | false =>
        rw [if_neg nofun, if_neg header, assignmentOf_plain body header marker]
        have sect : (readLine at_ line []).sect = at_ := by
          rw [readLine_plain body header marker]
          split <;> rfl
        have found : '=' ∈ first :: (rest ++ after) ↔ '=' ∈ first :: rest := by
          rw [List.mem_cons, List.mem_cons, apart '=' rfl]
        rw [sect]
        by_cases eq : '=' ∈ first :: rest
        · have key := takeWhile_append_of_mem eq after
          have value := dropWhile_append_of_mem eq after
          have ne : (first :: rest).dropWhile (· != '=') ≠ [] := by
            intro empty
            have := List.dropWhile_eq_nil_iff.mp empty '=' eq
            simp at this
          rw [List.cons_append] at key value
          rw [if_neg (not_not.mpr (found.mpr eq)), key, value, List.tail_append_of_ne_nil ne,
            trim_strip_append_blanks blank]
          by_cases empty : trim ((first :: rest).takeWhile (· != '=')) = []
          · rw [if_pos empty, if_pos (.inr empty)]
          · rw [if_neg empty, if_neg (by simp [eq, empty])]
        · rw [if_pos fun h => eq (found.mp h), if_pos (.inl eq)]

theorem config_get (at_ : Text) (lines : List Text) (values : Store Text Text) (name : Text) :
    (lines.foldl configLine (at_, values)).2.get name =
      ((lastThat (·.FiledUnder name) (assignments at_ lines)).map (·.value)).or
        (values.get name) := by
  induction lines generalizing at_ values with
  | nil => rfl
  | cons line lines ih =>
    rw [List.foldl_cons, configLine_eq, ih, assignments, lastThat_append, lastThat_toList,
      Option.map_or, Option.or_assoc]
    congr 1
    cases assignmentOf at_ line with
    | none => rfl
    | some a =>
      rw [Store.get_set]
      by_cases filed : a.FiledUnder name
      · rw [if_pos (show name = lower (dottedName a.sect a.key) from filed.symm)]
        simp [Option.filter, filed]
      · rw [if_neg fun h => filed (Eq.symm h)]
        simp [Option.filter, filed]

/-! ### The two readers on one text -/

theorem assignments_filter (at_ : Text) (lines : List Text) :
    assignments at_ (lines.filter fun line => !line.isEmpty) = assignments at_ lines := by
  induction lines generalizing at_ with
  | nil => rfl
  | cons line lines ih =>
    cases line with
    | nil =>
      rw [List.filter_cons_of_neg (by simp), ih, assignments, @readLine_blank [] nofun]
      rfl
    | cons c line =>
      rw [List.filter_cons_of_pos (by simp), assignments, assignments, ih]

theorem configLines_pieces (fuel : Nat) (text : Text) (enough : text.length ≤ fuel) :
    (configLines fuel text).filter (fun line => !line.isEmpty) = pieces isNewline text := by
  induction fuel generalizing text with
  | zero =>
    obtain rfl := List.length_eq_zero_iff.mp (Nat.le_zero.mp enough)
    rfl
  | succ fuel ih =>
    by_cases ne : text = []
    · subst ne
      rfl
    · obtain ⟨line, eol, rest, split, whole, free, newlines, ended, shorter⟩ :=
        @splitLines_cons fuel text ne
      have line_eq : line = text.takeWhile (!isNewline ·) := by
        rw [splitLines, if_neg ne] at split
        exact (Prod.mk.inj (List.cons.inj split).1).1.symm
      have after : (text.dropWhile (!isNewline ·)).dropWhile isNewline = rest.dropWhile isNewline := by
        have : text.dropWhile (!isNewline ·) = eol ++ rest := by
          have := List.takeWhile_append_dropWhile (p := (!isNewline ·)) (l := text)
          rw [← line_eq] at this
          exact List.append_cancel_left (this.trans whole)
        rw [this, List.dropWhile_append, if_pos]
        rw [List.isEmpty_iff]
        exact List.dropWhile_eq_nil_iff.mpr newlines
      have shorter' : (rest.dropWhile isNewline).length ≤ fuel := by
        have := (List.dropWhile_suffix isNewline (l := rest)).length_le
        omega
      rw [configLines, if_neg ne, after, ← line_eq, filter_line free newlines ended, ← whole]
      rw [ih _ shorter', pieces_dropWhile]

def assignmentsOf (text : Text) : List Assignment :=
  assignments [] (pieces isNewline (dropMark text))

theorem liveIn_eq_lastThat (text sect key : Text) :
    liveIn (iniParse text) sect key =
      (lastThat (·.At sect key) (assignmentsOf text)).map (·.value) := by
  rw [liveIn_iniParse, liveFrom_eq, assignmentsOf]

theorem configParse_get {text : Text} (fits : text.length ≤ 2 ^ 20) (values : Store Text Text)
    (name : Text) :
    (configParse values text).get name =
      (lastThat (·.FiledUnder name) (assignmentsOf text)).map (·.value) := by
  rw [configParse, if_neg (Nat.not_lt.mpr fits), config_get, assignmentsOf,
    ← configLines_pieces _ _ (Nat.le_refl _), assignments_filter]
  exact Option.or_none

theorem Assignment.At.filedUnder {a : Assignment} {sect key : Text} (at_ : a.At sect key)
    (ne : sect ≠ []) : a.FiledUnder (lower (sect ++ '.' :: key)) := by
  obtain ⟨-, sameSect, sameKey⟩ := at_
  have named : a.sect ≠ [] := by
    intro empty
    have := congrArg List.length (show lower a.sect = lower sect from sameSect)
    rw [empty, length_lower, length_lower] at this
    exact ne (List.length_eq_zero_iff.mp this.symm)
  unfold Assignment.FiledUnder dottedName
  rw [if_neg named, lower_append, lower_append, lower_cons, lower_cons,
    show lower a.sect = lower sect from sameSect, show lower a.key = lower key from sameKey]

theorem getLast?_filter_of_last [DecidablePred p] {list : List Assignment} {a : Assignment}
    (last : list.getLast? = some a) (meets : p a) : (list.filter p).getLast? = some a := by
  obtain ⟨front, rfl⟩ := List.getLast?_eq_some_iff.mp last
  rw [List.filter_append, List.filter_cons_of_pos (by simpa using meets)]
  simp

/-- The last line filed under a name is the name's own: it stands in the section
and under the key the name is cut into, or the last line that does has the same
value. -/
def LastIsOwn (text sect key : Text) : Prop :=
  ∀ a, lastThat (·.FiledUnder (sect ++ '.' :: key)) (assignmentsOf text) = some a →
    a.At sect key ∨
      ∃ own, lastThat (·.At sect key) (assignmentsOf text) = some own ∧ own.value = a.value

/-- The editor reads the value that the game reads exactly when the last line
the game files under the name is the name's own. -/
theorem iniValue_eq_config_iff (values : Store Text Text) (text sect key : Text)
    (fits : text.length ≤ 2 ^ 20) (sectNe : sect ≠ []) (undotted : '.' ∉ sect)
    (lowerCase : lower (sect ++ '.' :: key) = sect ++ '.' :: key) :
    (∀ fallback, iniValue text (sect ++ '.' :: key) fallback =
        ((configParse values text).get (sect ++ '.' :: key)).getD fallback) ↔
      LastIsOwn text sect key := by
  have filed (a : Assignment) (at_ : a.At sect key) : a.FiledUnder (sect ++ '.' :: key) := by
    rw [← lowerCase]
    exact at_.filedUnder sectNe
  have inner : (assignmentsOf text).filter (·.At sect key) =
      ((assignmentsOf text).filter (·.FiledUnder (sect ++ '.' :: key))).filter (·.At sect key) := by
    rw [List.filter_filter]
    congr 1
    funext a
    by_cases at_ : a.At sect key <;> simp [at_, filed]
  simp only [iniValue_eq, splitDotted_append undotted, liveIn_eq_lastThat,
    configParse_get fits]
  constructor
  · intro agree a last
    rw [last] at agree
    cases own : lastThat (·.At sect key) (assignmentsOf text) with
    | none =>
      -- two fallbacks tell a stored value from an absent one
      rw [own] at agree
      have := (agree ['0']).trans (agree ['1']).symm
      simp at this
    | some b =>
      rw [own] at agree
      exact .inr ⟨b, rfl, by simpa using agree []⟩
  · intro last fallback
    cases found : lastThat (·.FiledUnder (sect ++ '.' :: key)) (assignmentsOf text) with
    | none =>
      have empty : (assignmentsOf text).filter (·.FiledUnder (sect ++ '.' :: key)) = [] :=
        List.getLast?_eq_none_iff.mp found
      rw [lastThat, inner, empty]
      rfl
    | some a =>
      rcases last a found with own | ⟨b, own, same⟩
      · have : lastThat (·.At sect key) (assignmentsOf text) = some a := by
          rw [lastThat, inner]
          exact getLast?_filter_of_last found own
        rw [this]
      · rw [own]
        simp [same]

theorem iniValue_eq_config_repeated :
    iniValue "[a]\nb = 1 ; one\n B=2\r\n".toList "a.b".toList "0".toList =
      ((configParse [] "[a]\nb = 1 ; one\n B=2\r\n".toList).get "a.b".toList).getD
        "0".toList := by
  refine (iniValue_eq_config_iff [] _ "a".toList "b".toList (by decide) (by decide) (by decide)
    (by decide)).mpr ?_ _
  intro a last
  have : lastThat (·.FiledUnder "a.b".toList)
      (assignmentsOf "[a]\nb = 1 ; one\n B=2\r\n".toList) =
        some ⟨"a".toList, "B".toList, "2".toList⟩ := by
    decide +kernel
  cases last.symm.trans this
  exact .inl (by decide)

/-- A bare dotted key is a setting to the game and nothing to the editor. -/
theorem bare_dotted_key_unread :
    (configParse [] "a.b = c".toList).get "a.b".toList = some "c".toList ∧
      iniValue "a.b = c".toList "a.b".toList [] = [] := by
  decide +kernel

end EdvrPatch.Ini
