import EdvrPatch.Ini.Document

/-! Blanks and inline comments: what trimming and cutting a comment keep. -/
namespace EdvrPatch.Ini

/-! ### Blanks -/

variable {s : Text}

theorem trim_eq_nil_iff : trim s = [] ↔ ∀ c ∈ s, isBlank c = true := by
  unfold trim
  rw [List.rdropWhile_eq_nil_iff]
  constructor
  · intro blank c member
    rw [← List.takeWhile_append_dropWhile (p := isBlank) (l := s), List.mem_append] at member
    rcases member with member | member
    · exact List.mem_takeWhile_imp member
    · exact blank c member
  · exact fun blank c member => blank c (List.dropWhile_suffix _ |>.subset member)

theorem trim_spec (s : Text) : ∃ before after : Text,
    s = before ++ trim s ++ after ∧ (∀ c ∈ before, isBlank c = true) ∧
      ∀ c ∈ after, isBlank c = true := by
  refine ⟨s.takeWhile isBlank, (s.dropWhile isBlank).rtakeWhile isBlank, ?_, ?_, ?_⟩
  · unfold trim
    rw [List.append_assoc, List.rdropWhile_append_rtakeWhile, List.takeWhile_append_dropWhile]
  · exact fun c member => List.mem_takeWhile_imp member
  · exact fun c member => List.mem_rtakeWhile_imp member

def Trimmed (s : Text) : Prop :=
  (∀ c ∈ s.head?, isBlank c = false) ∧ ∀ c ∈ s.getLast?, isBlank c = false

theorem dropWhile_blanks {before : Text} (blank : ∀ c ∈ before, isBlank c = true) :
    (before ++ s).dropWhile isBlank = s.dropWhile isBlank := by
  induction before with
  | nil => rfl
  | cons c before ih =>
    rw [List.cons_append, List.dropWhile_cons_of_pos (blank c List.mem_cons_self)]
    exact ih fun x member => blank x (List.mem_cons_of_mem _ member)

variable {after : Text}

theorem rdropWhile_blanks (blank : ∀ c ∈ after, isBlank c = true) :
    (s ++ after).rdropWhile isBlank = s.rdropWhile isBlank := by
  unfold List.rdropWhile
  rw [List.reverse_append]
  exact congrArg List.reverse (dropWhile_blanks fun c member => blank c (List.mem_reverse.mp member))

theorem trim_append_blanks (blank : ∀ c ∈ after, isBlank c = true) :
    trim (s ++ after) = trim s := by
  unfold trim
  by_cases all : ∀ c ∈ s, isBlank c = true
  · rw [dropWhile_blanks all, List.dropWhile_eq_nil_iff.mpr blank, List.dropWhile_eq_nil_iff.mpr all]
  · rw [List.dropWhile_append, if_neg]
    · exact rdropWhile_blanks blank
    · rw [List.isEmpty_iff, List.dropWhile_eq_nil_iff]
      exact all

theorem trim_blanks_append {before : Text} (blank : ∀ c ∈ before, isBlank c = true) :
    trim (before ++ s) = trim s := by
  unfold trim
  rw [dropWhile_blanks blank]

theorem Trimmed.trim_eq (trimmed : Trimmed s) : trim s = s := by
  have front : s.dropWhile isBlank = s := by
    cases s with
    | nil => rfl
    | cons c s => exact List.dropWhile_cons_of_neg (by simp [trimmed.1 c rfl])
  unfold trim
  rw [front, List.rdropWhile_eq_self_iff]
  intro ne
  simp [trimmed.2 _ (List.getLast?_eq_some_getLast ne)]

theorem trimmed_trim (s : Text) : Trimmed (trim s) := by
  have back : ∀ c ∈ (trim s).getLast?, isBlank c = false := by
    intro c last
    have ne : trim s ≠ [] := by
      rintro empty
      rw [empty] at last
      cases last
    have := List.rdropWhile_last_not isBlank (s.dropWhile isBlank) ne
    rw [List.getLast?_eq_some_getLast ne, Option.mem_some] at last
    subst last
    exact eq_false_of_ne_true this
  refine ⟨?_, back⟩
  intro c first
  have kept : trim s <+: s.dropWhile isBlank := List.rdropWhile_prefix isBlank _
  cases body : trim s with
  | nil =>
    rw [body] at first
    cases first
  | cons d rest =>
    rw [body, List.head?_cons, Option.mem_some] at first
    subst first
    rw [body] at kept
    obtain ⟨more, whole⟩ := kept
    have := List.head_dropWhile_not isBlank (l := s) (by rw [← whole]; simp)
    simpa [← whole] using this

theorem trimmed_nil : Trimmed [] :=
  ⟨nofun, nofun⟩

/-! ### Inline comments -/

variable {c : Char}

theorem not_isMarker_of_isBlank (blank : isBlank c = true) : isMarker c = false := by
  simp only [isBlank, Bool.or_eq_true, beq_iff_eq] at blank
  rcases blank with rfl | rfl <;> rfl

def CommentFree (s : Text) : Prop :=
  stripInlineComment s = s

theorem stripInlineComment_cons_of_not {a b : Char} {rest : Text}
    (kept : ¬(isBlank a = true ∧ isMarker b = true)) :
    stripInlineComment (a :: b :: rest) = a :: stripInlineComment (b :: rest) := by
  rw [stripInlineComment, if_neg]
  simpa using kept

theorem commentFree_blanks (blank : ∀ c ∈ s, isBlank c = true) : CommentFree s := by
  unfold CommentFree
  induction s with
  | nil => rfl
  | cons a s ih =>
    cases s with
    | nil => rfl
    | cons b rest =>
      rw [stripInlineComment_cons_of_not, ih fun c member => blank c (List.mem_cons_of_mem _ member)]
      rintro ⟨-, marker⟩
      rw [not_isMarker_of_isBlank (blank b (by simp))] at marker
      cases marker

theorem trim_strip_append_blanks (blank : ∀ c ∈ after, isBlank c = true) :
    trim (stripInlineComment (s ++ after)) = trim (stripInlineComment s) := by
  have cut : stripInlineComment (s ++ after) = stripInlineComment s ∨
      stripInlineComment (s ++ after) = stripInlineComment s ++ after := by
    induction s with
    | nil => exact .inr (commentFree_blanks blank)
    | cons a s ih =>
      cases s with
      | nil =>
        cases after with
        | nil => exact .inl rfl
        | cons b after =>
          refine .inr ?_
          rw [List.singleton_append, stripInlineComment_cons_of_not]
          · exact congrArg (a :: ·) (commentFree_blanks blank)
          · rintro ⟨-, marker⟩
            rw [not_isMarker_of_isBlank (blank b List.mem_cons_self)] at marker
            cases marker
      | cons b rest =>
        simp only [List.cons_append, stripInlineComment]
        split
        · exact .inl rfl
        · rw [List.cons_append] at ih
          rcases ih with ih | ih
          · exact .inl (congrArg (a :: ·) ih)
          · exact .inr (congrArg (a :: ·) ih)
  rcases cut with cut | cut
  · rw [cut]
  · rw [cut, trim_append_blanks blank]

theorem stripInlineComment_starts (s : Text) : stripInlineComment s <+: s := by
  induction s with
  | nil => exact List.prefix_rfl
  | cons a s ih =>
    cases s with
    | nil => exact List.prefix_rfl
    | cons b rest =>
      unfold stripInlineComment
      split
      · exact ⟨b :: rest, rfl⟩
      · exact List.cons_prefix_cons.mpr ⟨rfl, ih⟩

theorem stripInlineComment_stripInlineComment (s : Text) :
    CommentFree (stripInlineComment s) := by
  unfold CommentFree
  induction s with
  | nil => rfl
  | cons a s ih =>
    cases s with
    | nil => rfl
    | cons b rest =>
      by_cases cut : isBlank a = true ∧ isMarker b = true
      · have here : stripInlineComment (a :: b :: rest) = [a] := by
          rw [stripInlineComment, if_pos (by simpa using cut)]
        rw [here]
        rfl
      · rw [stripInlineComment_cons_of_not cut]
        obtain ⟨more, head⟩ : ∃ more, stripInlineComment (b :: rest) = b :: more := by
          cases rest with
          | nil => exact ⟨[], rfl⟩
          | cons c rest =>
            unfold stripInlineComment
            split <;> exact ⟨_, rfl⟩
        rw [head] at ih ⊢
        rw [stripInlineComment_cons_of_not cut, ih]

theorem CommentFree.of_append {t : Text} (free : CommentFree (s ++ t)) :
    CommentFree s ∧ CommentFree t := by
  unfold CommentFree at *
  induction s with
  | nil => exact ⟨rfl, free⟩
  | cons a s ih =>
    cases s with
    | nil =>
      refine ⟨rfl, ?_⟩
      cases t with
      | nil => rfl
      | cons b t =>
        rw [List.singleton_append, stripInlineComment] at free
        split at free
        · simp at free
        · simpa using free
    | cons b rest =>
      simp only [List.cons_append, stripInlineComment] at free ⊢
      split at free
      · simp at free
      · rename_i kept
        rw [if_neg kept]
        obtain ⟨front, back⟩ := ih (by simpa using free)
        exact ⟨congrArg (a :: ·) front, back⟩

theorem CommentFree.trim (free : CommentFree s) : CommentFree (trim s) := by
  obtain ⟨before, after, whole, -, -⟩ := trim_spec s
  rw [whole] at free
  exact free.of_append.1.of_append.2

theorem stripInlineComment_append_marker {rest : Text} {blank marker : Char}
    (free : CommentFree (s ++ [blank])) (isB : isBlank blank = true)
    (isM : isMarker marker = true) :
    stripInlineComment (s ++ blank :: marker :: rest) = s ++ [blank] := by
  unfold CommentFree at free
  induction s with
  | nil =>
    rw [List.nil_append, stripInlineComment, if_pos]
    · rfl
    · simp [isB, isM]
  | cons a s ih =>
    cases s with
    | nil =>
      rw [List.cons_append, List.nil_append, stripInlineComment_cons_of_not]
      · rw [stripInlineComment, if_pos (by simp [isB, isM])]
        rfl
      · rw [not_isMarker_of_isBlank isB]
        exact fun h => nomatch h.2
    | cons b more =>
      simp only [List.cons_append, stripInlineComment] at free ⊢
      split at free
      · simp at free
      · rename_i kept
        rw [if_neg kept]
        exact congrArg (a :: ·) (ih (by simpa using free))

/-! ### Keys -/

theorem takeWhile_append_of_mem (here : c ∈ s) (t : Text) :
    (s ++ t).takeWhile (· != c) = s.takeWhile (· != c) := by
  induction s with
  | nil => cases here
  | cons d s ih =>
    by_cases same : d = c
    · subst same
      simp
    · have later : c ∈ s := (List.mem_cons.mp here).resolve_left fun h => same h.symm
      simp only [List.cons_append, List.takeWhile_cons, ih later]

theorem dropWhile_append_of_mem (here : c ∈ s) (t : Text) :
    (s ++ t).dropWhile (· != c) = s.dropWhile (· != c) ++ t := by
  induction s with
  | nil => cases here
  | cons d s ih =>
    by_cases same : d = c
    · subst same
      simp
    · have later : c ∈ s := (List.mem_cons.mp here).resolve_left fun h => same h.symm
      simp [same, ih later]

theorem splitKeyValue_eq (body : Text) : splitKeyValue body =
    if '=' ∈ body ∧ isKeyToken (trim (body.takeWhile (· != '='))) then
      some (trim (body.takeWhile (· != '=')),
        trim (stripInlineComment (body.dropWhile (· != '=')).tail))
    else none := by
  unfold splitKeyValue
  by_cases eq : '=' ∈ body
  · by_cases token : isKeyToken (trim (body.takeWhile (· != '='))) = true
    · simp [eq, token]
    · simp [eq, token]
  · simp [eq]

end EdvrPatch.Ini
