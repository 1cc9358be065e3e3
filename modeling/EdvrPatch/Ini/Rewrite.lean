import EdvrPatch.Ini.Emission

/-! What a rewritten line says: the key it said before, and the new value unless
the value starts like a comment. -/
namespace EdvrPatch.Ini

/-- The comment mark a value may start with, which a reader takes for a comment
once there is a blank in front of it. -/
def MarkerLed (value : Text) : Prop :=
  ∃ c ∈ value.head?, isMarker c = true

instance (value : Text) : Decidable (MarkerLed value) :=
  inferInstanceAs (Decidable (∃ c, c ∈ value.head? ∧ isMarker c = true))

variable {c : Char}

theorem isBlank_isSpace (blank : isBlank c = true) : isSpace c = true := by
  simp only [isBlank, Bool.or_eq_true, beq_iff_eq] at blank
  rcases blank with rfl | rfl <;> rfl

theorem isKeyToken_spec {key : Text} (token : isKeyToken key = true) :
    ∃ first rest, key = first :: rest ∧ first ≠ '[' ∧ isMarker first = false ∧
      ∀ c ∈ key, isBlank c = false := by
  simp only [isKeyToken, Bool.and_eq_true, bne_iff_ne, ne_eq, List.all_eq_true] at token
  obtain ⟨⟨ne, -⟩, chars⟩ := token
  obtain ⟨first, rest, rfl⟩ := List.exists_cons_of_ne_nil ne
  have here := chars first List.mem_cons_self
  simp only [isKeyChar, Bool.not_eq_true', Bool.or_eq_false_iff, beq_eq_false_iff_ne] at here
  refine ⟨first, rest, rfl, here.1.2, ?_, ?_⟩
  · simp [isMarker, here.1.1.1.2, here.1.1.2]
  · intro c member
    have key := chars c member
    cases blank : isBlank c with
    | false => rfl
    | true => simp [isKeyChar, isBlank_isSpace blank] at key

theorem readLine_assign {indent key pad : Text} (value : Text)
    (blank : ∀ c ∈ indent, isBlank c = true) (token : isKeyToken key = true) (noEq : '=' ∉ key)
    (blank' : ∀ c ∈ pad, isBlank c = true) (at_ eol : Text) :
    readLine at_ (indent ++ (key ++ pad ++ '=' :: value)) eol =
      { kind := .key, text := indent ++ (key ++ pad ++ '=' :: value), eol := eol, sect := at_,
        key := key, value := trim (stripInlineComment value) } := by
  obtain ⟨first, rest, rfl, notHeader, notMarker, solid⟩ := isKeyToken_spec token
  have noEq' : '=' ∉ first :: rest ++ pad := by
    rw [List.mem_append, not_or]
    refine ⟨noEq, fun member => ?_⟩
    cases blank' '=' member
  have front : ∀ c ∈ first :: rest ++ pad, (c != '=') = true := by
    intro c member
    have : c ≠ '=' := fun same => noEq' (same ▸ member)
    simpa using this
  -- the body ends with the value, less the blanks after it
  obtain ⟨value', after, value_eq, blanks, body⟩ : ∃ value' after : Text, value = value' ++ after ∧
      (∀ c ∈ after, isBlank c = true) ∧
      trim (indent ++ (first :: rest ++ pad ++ '=' :: value)) =
        first :: rest ++ pad ++ '=' :: value' := by
    refine ⟨value.rdropWhile isBlank, value.rtakeWhile isBlank,
      (List.rdropWhile_append_rtakeWhile ..).symm, fun c member => List.mem_rtakeWhile_imp member, ?_⟩
    have cut : value = value.rdropWhile isBlank ++ value.rtakeWhile isBlank :=
      (List.rdropWhile_append_rtakeWhile ..).symm
    conv_lhs => rw [cut]
    rw [trim_blanks_append blank, ← List.cons_append, ← List.append_assoc,
      trim_append_blanks fun c member => List.mem_rtakeWhile_imp member]
    apply Trimmed.trim_eq
    refine ⟨?_, ?_⟩
    · rintro _ ⟨⟩
      exact solid first List.mem_cons_self
    · intro c last
      by_cases none : value.rdropWhile isBlank = []
      · rw [none, List.getLast?_concat, Option.mem_some] at last
        subst last
        rfl
      · rw [List.getLast?_append, List.getLast?_cons, List.getLast?_eq_some_getLast none] at last
        obtain rfl : _ = c := by simpa using last
        exact eq_false_of_ne_true (List.rdropWhile_last_not isBlank value none)
  have key_eq : trim (first :: rest ++ pad) = first :: rest := by
    rw [trim_append_blanks blank']
    apply Trimmed.trim_eq
    exact ⟨fun c inside => solid c (List.mem_of_mem_head? inside),
      fun c inside => solid c (List.mem_of_mem_getLast? inside)⟩
  rw [readLine_plain (by simpa using body) notHeader notMarker]
  have split_ : splitKeyValue (first :: rest ++ pad ++ '=' :: value') =
      some (first :: rest, trim (stripInlineComment value')) := by
    rw [splitKeyValue_eq, List.takeWhile_append_of_pos front, List.dropWhile_append_of_pos front]
    simp only [List.takeWhile_cons, List.dropWhile_cons, bne_self_eq_false, Bool.false_eq_true,
      if_false, List.append_nil, List.tail_cons, key_eq, token, and_true]
    rw [if_pos (by simp)]
  rw [show first :: (rest ++ (pad ++ '=' :: value')) = first :: rest ++ pad ++ '=' :: value' by simp,
    split_, value_eq, trim_strip_append_blanks blanks]

/-! ### The lines that hold a setting -/

/-- The parts of an assignment: the key, blanks, the equals sign, the value. -/
structure AssignForm (body key value : Text) : Prop where
  token : isKeyToken key = true
  noEq : '=' ∉ key
  form : ∃ pad rest, body = key ++ pad ++ '=' :: rest ∧ (∀ c ∈ pad, isBlank c = true) ∧
    value = trim (stripInlineComment rest)

theorem splitKeyValue_form {body key value : Text} (trimmed : ∀ c ∈ body.head?, isBlank c = false)
    (cut : splitKeyValue body = some (key, value)) : AssignForm body key value := by
  rw [splitKeyValue_eq] at cut
  split at cut
  case isFalse => cases cut
  case isTrue found =>
    obtain ⟨eq, token⟩ := found
    obtain ⟨key_eq, value_eq⟩ := Prod.mk.inj (Option.some.inj cut)
    have whole := List.takeWhile_append_dropWhile (p := (· != '=')) (l := body)
    obtain ⟨rest, after⟩ : ∃ rest, body.dropWhile (· != '=') = '=' :: rest := by
      have ne : body.dropWhile (· != '=') ≠ [] := by
        intro none
        have := List.dropWhile_eq_nil_iff.mp none '=' eq
        simp at this
      obtain ⟨c, rest, starts⟩ := List.exists_cons_of_ne_nil ne
      have := List.head_dropWhile_not (· != '=') ne
      simp only [starts, List.head_cons, bne_eq_false_iff_eq] at this
      exact ⟨rest, by rw [starts, this]⟩
    obtain ⟨before, pad, name, blank, blank'⟩ := trim_spec (body.takeWhile (· != '='))
    obtain ⟨first, more, key_cons, -, -, solid⟩ := isKeyToken_spec token
    have noEq : '=' ∉ body.takeWhile (· != '=') := by
      intro member
      have := List.mem_takeWhile_imp member
      simp at this
    rw [key_eq] at name key_cons token solid
    -- nothing stands before the key: the body starts with its first character
    have none : before = [] := by
      cases before with
      | nil => rfl
      | cons c before =>
        have : isBlank c = false := trimmed c (by rw [← whole, name]; rfl)
        rw [blank c List.mem_cons_self] at this
        cases this
    subst none
    refine ⟨token, fun member => noEq ?_, pad, rest, ?_, blank', ?_⟩
    · rw [name]
      simp [member]
    · rw [← after, ← List.nil_append key, ← name, whole]
    · rw [← value_eq, after, List.tail_cons]

theorem isSetting_iff {line : IniLine} :
    isSetting line = true ↔ line.kind = .key ∨ line.kind = .commentedKey := by
  simp [isSetting]

variable {text eol : Text}

theorem bareLine_form {at_ : Text} (setting : isSetting (readLine at_ text eol) = true) :
    AssignForm (bareLine text ((readLine at_ text eol).kind = .commentedKey))
      (readLine at_ text eol).key (readLine at_ text eol).value := by
  rw [isSetting_iff] at setting
  have extend {body key value after : Text} (blank : ∀ c ∈ after, isBlank c = true)
      (form : AssignForm body key value) : AssignForm (body ++ after) key value := by
    obtain ⟨token, noEq, pad, rest, whole, blank', value_eq⟩ := form
    refine ⟨token, noEq, pad, rest ++ after, by simp [whole], blank', ?_⟩
    rw [value_eq, trim_strip_append_blanks blank]
  cases body : trim text with
  | nil =>
    rw [readLine_blank (trim_eq_nil_iff.mp body)] at setting
    simp at setting
  | cons first rest =>
    have trimmed := trimmed_trim text
    rw [body] at trimmed
    obtain ⟨after, front, blank⟩ : ∃ after : Text, text.dropWhile isBlank = first :: rest ++ after ∧
        ∀ c ∈ after, isBlank c = true := by
      refine ⟨(text.dropWhile isBlank).rtakeWhile isBlank, ?_,
        fun c member => List.mem_rtakeWhile_imp member⟩
      rw [← body]
      exact (List.rdropWhile_append_rtakeWhile ..).symm
    have bare : (splitIndent text).2 = first :: rest ++ after := by
      unfold splitIndent
      rw [front]
      simp
    by_cases header : first = '['
    · subst header
      by_cases close : ']' ∈ rest
      · rw [readLine_header body close] at setting
        simp at setting
      · rw [readLine_unclosed body close] at setting
        simp at setting
    · cases marker : isMarker first with
      | false =>
        rw [readLine_plain body header marker] at setting ⊢
        cases cut : splitKeyValue (first :: rest) with
        | none => simp [cut] at setting
        | some found =>
          obtain ⟨key, value⟩ := found
          have work : bareLine text (decide (LineKind.key = .commentedKey)) =
              first :: rest ++ after := by
            simp [bareLine, bare]
          rw [work]
          exact extend blank (splitKeyValue_form trimmed.1 cut)
      | true =>
        rw [readLine_marker body marker] at setting ⊢
        cases cut : splitKeyValue (trim ((first :: rest).dropWhile isMarker)) with
        | none => simp [cut] at setting
        | some found =>
          obtain ⟨key, value⟩ := found
          have form := splitKeyValue_form (trimmed_trim _).1 cut
          have some_ : (first :: rest).dropWhile isMarker ≠ [] := by
            intro none
            rw [none] at cut
            cases cut
          -- behind the markers: blanks, the assignment, blanks
          obtain ⟨before, after', inner, blank', blank''⟩ :=
            trim_spec ((first :: rest).dropWhile isMarker)
          have solid : (trim ((first :: rest).dropWhile isMarker) ++ (after' ++ after)).dropWhile
              isBlank = trim ((first :: rest).dropWhile isMarker) ++ (after' ++ after) := by
            cases inside : trim ((first :: rest).dropWhile isMarker) with
            | nil =>
              rw [inside] at cut
              cases cut
            | cons c more =>
              have := (trimmed_trim ((first :: rest).dropWhile isMarker)).1 c (by rw [inside]; rfl)
              exact List.dropWhile_cons_of_neg (by simp [this])
          have work : bareLine text (decide (LineKind.commentedKey = .commentedKey)) =
              trim ((first :: rest).dropWhile isMarker) ++ (after' ++ after) := by
            simp only [bareLine, bare, decide_true, if_true]
            rw [List.dropWhile_append, if_neg (by simpa using some_)]
            nth_rewrite 1 [inner]
            rw [List.append_assoc, List.append_assoc, dropWhile_blanks blank', solid]
          rw [work]
          refine extend ?_ form
          intro c member
          rcases List.mem_append.mp member with member | member
          · exact blank'' c member
          · exact blank c member

/-! ### The value of a rewritten line -/

/-- What may stand behind the equals sign of a rewritten line: the new value
behind at least one blank, alone or with a comment after it. -/
inductive Behind (value : Text) : Text → Prop where
  | alone (spacing : Text) : spacing ≠ [] → (∀ c ∈ spacing, isBlank c = true) →
      Behind value (spacing ++ value)
  | commented (spacing : Text) (marker : Char) (more : Text) : spacing ≠ [] →
      (∀ c ∈ spacing, isBlank c = true) → isMarker marker = true →
      Behind value ((spacing ++ value).rdropWhile isBlank ++ ' ' :: marker :: more)

theorem inlineComment_spec (rest : Text) :
    inlineComment rest = [] ∨
      ∃ marker more, inlineComment rest = marker :: more ∧ isMarker marker = true := by
  have cut (rest : Text) : rest.drop (stripInlineComment rest).length = [] ∨
      ∃ marker more, rest.drop (stripInlineComment rest).length = marker :: more ∧
        isMarker marker = true := by
    induction rest with
    | nil => exact .inl rfl
    | cons a rest ih =>
      cases rest with
      | nil => exact .inl rfl
      | cons b rest =>
        by_cases here : isBlank a = true ∧ isMarker b = true
        · rw [stripInlineComment, if_pos (by simpa using here)]
          exact .inr ⟨b, rest, rfl, here.2⟩
        · rw [stripInlineComment_cons_of_not here]
          exact ih
  unfold inlineComment
  split
  · rename_i led
    cases rest with
    | nil => exact .inl rfl
    | cons c rest => exact .inr ⟨c, rest, rfl, by simpa using led⟩
  · exact cut rest

theorem trim_cons_of_not_blank (solid : isBlank c = false) (rest : Text) :
    ∃ more, trim (c :: rest) = c :: more := by
  have kept : trim (c :: rest) <+: c :: rest := by
    unfold trim
    rw [List.dropWhile_cons_of_neg (by simp [solid])]
    exact List.rdropWhile_prefix ..
  cases body : trim (c :: rest) with
  | nil =>
    have := trim_eq_nil_iff.mp body c List.mem_cons_self
    rw [solid] at this
    cases this
  | cons d more =>
    rw [body] at kept
    exact ⟨more, by rw [(List.cons_prefix_cons.mp kept).1]⟩

variable {s rest : Text}

theorem rdropWhile_append_cons (solid : isBlank c = false) :
    (s ++ c :: rest).rdropWhile isBlank = s ++ c :: rest.rdropWhile isBlank := by
  unfold List.rdropWhile
  rw [List.reverse_append, List.reverse_cons, List.append_assoc, List.dropWhile_append]
  split
  · rename_i all
    rw [List.isEmpty_iff] at all
    rw [all]
    simp [solid]
  · simp

theorem isMarker_solid (marker : isMarker c = true) : isBlank c = false := by
  cases blank : isBlank c with
  | false => rfl
  | true =>
    rw [not_isMarker_of_isBlank blank] at marker
    cases marker

theorem rewriteValue_form {at_ : Text} (setting : isSetting (readLine at_ text eol) = true)
    (value : Text) :
    ∃ indent pad rest, rewriteValue text value ((readLine at_ text eol).kind = .commentedKey) =
        indent ++ ((readLine at_ text eol).key ++ pad ++ '=' :: rest) ∧
      (∀ c ∈ indent, isBlank c = true) ∧ (∀ c ∈ pad, isBlank c = true) ∧ Behind value rest := by
  obtain ⟨token, noEq, pad, rest, bare, blank, -⟩ := bareLine_form setting
  generalize (readLine at_ text eol).key = key at *
  unfold rewriteValue
  dsimp only
  rw [bare]
  have front : ∀ c ∈ key ++ pad, (c != '=') = true := by
    intro c member
    rcases List.mem_append.mp member with member | member
    · have : c ≠ '=' := fun same => noEq (same ▸ member)
      simpa using this
    · have : c ≠ '=' := by
        rintro rfl
        cases blank _ member
      simpa using this
  have indent : ∀ c ∈ (splitIndent text).1, isBlank c = true := by
    unfold splitIndent
    split
    · exact nofun
    · exact fun c member => List.mem_takeWhile_imp member
  rw [if_neg (by simp), List.takeWhile_append_of_pos front, List.dropWhile_append_of_pos front]
  simp only [List.takeWhile_cons, List.dropWhile_cons, bne_self_eq_false, Bool.false_eq_true,
    if_false, List.append_nil, List.tail_cons]
  obtain ⟨spacing, spacing_eq, ne, blanks⟩ : ∃ spacing : Text,
      (if rest.takeWhile isBlank = [] then [' '] else rest.takeWhile isBlank) = spacing ∧
        spacing ≠ [] ∧ ∀ c ∈ spacing, isBlank c = true := by
    refine ⟨_, rfl, ?_, ?_⟩
    · split
      · simp
      · assumption
    · split
      · decide
      · exact fun c member => List.mem_takeWhile_imp member
  rw [spacing_eq]
  have join (s : Text) : (splitIndent text).1 ++ (key ++ pad ++ ['=']) ++ s =
      (splitIndent text).1 ++ (key ++ pad ++ '=' :: s) := by
    simp
  rcases inlineComment_spec (rest.dropWhile isBlank) with none | ⟨marker, more, found, isM⟩
  · rw [if_pos none, List.append_assoc _ spacing, join]
    exact ⟨_, pad, _, rfl, indent, blank, .alone spacing ne blanks⟩
  · obtain ⟨more', trimmed⟩ := trim_cons_of_not_blank (isMarker_solid isM) more
    rw [found, if_neg (List.cons_ne_nil _ _), trimmed, List.append_assoc _ spacing, join,
      ← List.append_assoc, ← List.append_assoc, rdropWhile_append_cons rfl]
    refine ⟨_, pad, _, ?_, indent, blank, .commented spacing marker more' ne blanks isM⟩
    simp

theorem CommentFree.blanks_append {spacing value : Text} (blank : ∀ c ∈ spacing, isBlank c = true)
    (free : CommentFree value) (led : ¬MarkerLed value) : CommentFree (spacing ++ value) := by
  induction spacing with
  | nil => exact free
  | cons a spacing ih =>
    have later := ih fun c member => blank c (List.mem_cons_of_mem _ member)
    unfold CommentFree at later ⊢
    cases rest : spacing ++ value with
    | nil => rw [List.cons_append, rest]; rfl
    | cons b more =>
      rw [rest] at later
      rw [List.cons_append, rest, stripInlineComment_cons_of_not, later]
      rintro ⟨-, marker⟩
      cases spacing with
      | nil =>
        rw [List.nil_append] at rest
        exact led ⟨b, by rw [rest]; rfl, marker⟩
      | cons c spacing =>
        obtain rfl : c = b := (List.cons.inj rest).1
        rw [not_isMarker_of_isBlank (blank c (by simp))] at marker
        cases marker

theorem CommentFree.append_blank {blank : Char} (free : CommentFree s)
    (isB : isBlank blank = true) : CommentFree (s ++ [blank]) := by
  unfold CommentFree at *
  induction s with
  | nil => rfl
  | cons a s ih =>
    cases s with
    | nil =>
      rw [List.singleton_append, stripInlineComment_cons_of_not]
      · rfl
      · rw [not_isMarker_of_isBlank isB]
        exact fun h => nomatch h.2
    | cons b rest =>
      by_cases cut : isBlank a = true ∧ isMarker b = true
      · rw [stripInlineComment, if_pos (by simpa using cut)] at free
        simp at free
      · rw [stripInlineComment_cons_of_not cut] at free
        rw [List.cons_append, List.cons_append, stripInlineComment_cons_of_not cut]
        exact congrArg (a :: ·) (ih (by simpa using free))

theorem strip_blanks_marker {spacing : Text} {marker : Char} (ne : spacing ≠ [])
    (blank : ∀ c ∈ spacing, isBlank c = true) (isM : isMarker marker = true) :
    stripInlineComment (spacing ++ marker :: rest) = spacing := by
  obtain ⟨init, last, rfl⟩ := (List.eq_nil_or_concat spacing).resolve_left ne
  rw [List.concat_eq_append] at *
  rw [List.append_assoc, List.singleton_append]
  exact stripInlineComment_append_marker (commentFree_blanks blank) (blank last (by simp)) isM

theorem Behind.value {value : Text} (behind : Behind value rest) (trimmed : Trimmed value)
    (free : CommentFree value) :
    trim (stripInlineComment rest) = if MarkerLed value then [] else value := by
  split
  · rename_i led
    obtain ⟨c, first, isM⟩ := led
    obtain ⟨more, rfl⟩ := List.head?_eq_some_iff.mp first
    cases behind with
    | alone spacing ne blank =>
      rw [strip_blanks_marker ne blank isM]
      exact trim_eq_nil_iff.mpr blank
    | commented spacing marker more' ne blank _ =>
      rw [rdropWhile_append_cons (isMarker_solid isM), List.append_assoc, List.cons_append,
        strip_blanks_marker ne blank isM]
      exact trim_eq_nil_iff.mpr blank
  · rename_i led
    cases behind with
    | alone spacing ne blank =>
      have whole : stripInlineComment (spacing ++ value) = spacing ++ value :=
        free.blanks_append blank led
      rw [whole, trim_blanks_append blank, trimmed.trim_eq]
    | commented spacing marker more ne blank isM =>
      have kept : CommentFree ((spacing ++ value).rdropWhile isBlank) := by
        obtain ⟨after, whole⟩ := List.rdropWhile_prefix isBlank (spacing ++ value)
        have all := free.blanks_append blank led
        rw [← whole] at all
        exact all.of_append.1
      rw [stripInlineComment_append_marker (kept.append_blank rfl) rfl isM,
        trim_append_blanks (by decide)]
      have := @trim_append_blanks ((spacing ++ value).rdropWhile isBlank)
        ((spacing ++ value).rtakeWhile isBlank) fun c member => List.mem_rtakeWhile_imp member
      rw [List.rdropWhile_append_rtakeWhile, trim_blanks_append blank, trimmed.trim_eq] at this
      exact this.symm

def writtenValue (value : Text) : Text :=
  if MarkerLed value then [] else value

theorem rewriteValue_reads {at_ : Text} (setting : isSetting (readLine at_ text eol) = true)
    (value : Text) : ∃ found,
      (∀ at', readLine at' (rewriteValue text value ((readLine at_ text eol).kind = .commentedKey)) [] =
        { kind := .key, text := rewriteValue text value ((readLine at_ text eol).kind = .commentedKey),
          sect := at', key := (readLine at_ text eol).key, value := found }) ∧
      (Trimmed value → CommentFree value → found = writtenValue value) := by
  obtain ⟨token, noEq, -⟩ := bareLine_form setting
  obtain ⟨indent, pad, rest, form, blank, blank', behind⟩ := rewriteValue_form setting value
  refine ⟨trim (stripInlineComment rest), fun at' => ?_, behind.value⟩
  rw [form]
  exact readLine_assign rest blank token noEq blank' at' []

theorem assignText_reads {key : Text} (token : isKeyToken key = true) (noEq : '=' ∉ key)
    (value : Text) : ∃ found,
      (∀ at_, readLine at_ (assignText key value) [] =
        { kind := .key, text := assignText key value, sect := at_, key := key, value := found }) ∧
      (Trimmed value → CommentFree value → found = writtenValue value) := by
  have form : assignText key value = [] ++ (key ++ [' '] ++ '=' :: ' ' :: value) := by
    simp [assignText]
  refine ⟨trim (stripInlineComment (' ' :: value)), fun at_ => ?_, ?_⟩
  · rw [form]
    exact @readLine_assign [] key [' '] (' ' :: value) nofun token noEq (by decide) at_ []
  · exact (Behind.alone [' '] (by simp) (by decide) : Behind value (' ' :: value)).value

theorem comment_reads (body : trim text = '#' :: rest) :
    NoHeader text ∧ ∀ at_, (readLine at_ text []).kind ≠ .key := by
  refine ⟨fun at_ => ?_, fun at_ => ?_⟩
  · rw [readLine_marker body rfl, readLine_marker body rfl]
    split <;> rfl
  · rw [readLine_marker body rfl]
    split <;> simp

theorem commentOut_reads (solid : trim text ≠ []) :
    NoHeader (commentOut text) ∧ ∀ at_, (readLine at_ (commentOut text) []).kind ≠ .key := by
  have some_ : text.dropWhile isBlank ≠ [] := by
    intro none
    exact solid (trim_eq_nil_iff.mpr (List.dropWhile_eq_nil_iff.mp none))
  have body : ∃ rest, trim (commentOut text) = '#' :: rest := by
    unfold commentOut
    rw [if_neg some_, trim_blanks_append fun c member => List.mem_takeWhile_imp member]
    exact trim_cons_of_not_blank rfl _
  obtain ⟨rest, body⟩ := body
  exact comment_reads body

theorem mem_bareLine {uncomment : Bool} (member : c ∈ bareLine text uncomment) : c ∈ text := by
  have body : ∀ c ∈ (splitIndent text).2, c ∈ text := by
    unfold splitIndent
    split
    · exact fun c inside => inside
    · exact fun c inside => (List.dropWhile_suffix _).subset inside
  unfold bareLine at member
  split at member
  · exact body c ((List.dropWhile_suffix _).subset ((List.dropWhile_suffix _).subset member))
  · exact body c member

theorem mem_rewriteValue {value : Text} {uncomment : Bool}
    (member : c ∈ rewriteValue text value uncomment) :
    c ∈ text ∨ c ∈ value ∨ c = ' ' ∨ c = '=' := by
  have indent : ∀ c ∈ (splitIndent text).1, c ∈ text := by
    unfold splitIndent
    split
    · exact nofun
    · exact fun c inside => (List.takeWhile_prefix _).subset inside
  have bare : ∀ c ∈ bareLine text uncomment, c ∈ text := fun c => mem_bareLine
  unfold rewriteValue at member
  dsimp only at member
  generalize bareLine text uncomment = work at member bare
  split at member
  · rcases List.mem_append.mp member with inside | inside
    · exact .inl (indent c inside)
    · exact .inl (bare c inside)
  have tail : ∀ c ∈ (work.dropWhile (· != '=')).tail, c ∈ text :=
    fun c inside => bare c ((List.dropWhile_suffix _).subset (List.mem_of_mem_tail inside))
  have out : ∀ c ∈ (splitIndent text).1 ++ (work.takeWhile (· != '=') ++ ['=']) ++
      (if (work.dropWhile (· != '=')).tail.takeWhile isBlank = [] then [' ']
        else (work.dropWhile (· != '=')).tail.takeWhile isBlank) ++ value,
      c ∈ text ∨ c ∈ value ∨ c = ' ' ∨ c = '=' := by
    intro c inside
    rcases List.mem_append.mp inside with inside | inside
    · rcases List.mem_append.mp inside with inside | inside
      · rcases List.mem_append.mp inside with inside | inside
        · exact .inl (indent c inside)
        · rcases List.mem_append.mp inside with inside | inside
          · exact .inl (bare c ((List.takeWhile_prefix _).subset inside))
          · exact .inr (.inr (.inr (List.mem_singleton.mp inside)))
      · split at inside
        · exact .inr (.inr (.inl (List.mem_singleton.mp inside)))
        · exact .inl (tail c ((List.takeWhile_prefix _).subset inside))
    · exact .inr (.inl inside)
  split at member
  · exact out c member
  · rcases List.mem_append.mp member with inside | inside
    · exact out c ((List.rdropWhile_prefix _ _).subset inside)
    · rcases List.mem_cons.mp inside with rfl | inside
      · exact .inr (.inr (.inl rfl))
      · obtain ⟨before, after, whole, -, -⟩ :=
          trim_spec (inlineComment ((work.dropWhile (· != '=')).tail.dropWhile isBlank))
        have inside : c ∈ inlineComment ((work.dropWhile (· != '=')).tail.dropWhile isBlank) := by
          rw [whole]
          simp [inside]
        refine .inl (tail c ((List.dropWhile_suffix isBlank).subset ?_))
        unfold inlineComment at inside
        split at inside
        · exact inside
        · exact List.mem_of_mem_drop inside

theorem mem_commentOut (member : c ∈ commentOut text) : c ∈ text ∨ c = '#' := by
  unfold commentOut at member
  split at member
  · exact .inl member
  · rcases List.mem_append.mp member with inside | inside
    · exact .inl ((List.takeWhile_prefix _).subset inside)
    · rcases List.mem_cons.mp inside with rfl | inside
      · exact .inr rfl
      · exact .inl ((List.dropWhile_suffix _).subset inside)

/-! ### The settings of a document -/

structure SettingLine (line : IniLine) : Prop where
  token : isKeyToken line.key = true
  noEq : '=' ∉ line.key
  trimmed : Trimmed line.value
  free : CommentFree line.value
  keyLine : ∀ c ∈ line.key, isNewline c = false
  valueLine : ∀ c ∈ line.value, isNewline c = false

theorem mem_of_mem_trim (member : c ∈ trim s) : c ∈ s := by
  obtain ⟨before, after, whole, -, -⟩ := trim_spec s
  rw [whole]
  simp [member]

theorem settingLine {at_ : Text} (free : ∀ c ∈ text, isNewline c = false)
    (setting : isSetting (readLine at_ text eol) = true) : SettingLine (readLine at_ text eol) := by
  obtain ⟨token, noEq, pad, rest, bare, _, value_eq⟩ := bareLine_form setting
  have inside : ∀ c ∈ (readLine at_ text eol).key ++ pad ++ '=' :: rest, c ∈ text := by
    rw [← bare]
    exact fun c => mem_bareLine
  refine ⟨token, noEq, ?_, ?_, ?_, ?_⟩
  · rw [value_eq]
    exact trimmed_trim _
  · rw [value_eq]
    exact (stripInlineComment_stripInlineComment rest).trim
  · exact fun c member => free c (inside c (by simp [member]))
  · intro c member
    rw [value_eq] at member
    have := (stripInlineComment_starts rest).subset (mem_of_mem_trim member)
    exact free c (inside c (by simp [this]))

theorem settingLine_of_mem {line : IniLine} (member : line ∈ iniParse text)
    (setting : isSetting line = true) : SettingLine line := by
  obtain ⟨at_, here⟩ := (iniParse_readFrom text).mem member
  have free := ((iniParse_laidOut text).mem member).1
  rw [here] at setting ⊢
  exact settingLine free setting

end EdvrPatch.Ini
