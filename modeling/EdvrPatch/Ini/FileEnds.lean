import EdvrPatch.Ini.Rewrite

/-! The two ends of a written file. At its start a byte order mark would be
skipped by the next reader; at its end a block may run into a last line that has
no terminator. -/
namespace EdvrPatch.Ini

open Lib

/-! ### The first line -/

theorem sect_of_blanks {at_ : Text} {doc : IniDoc} (read : ReadFrom at_ doc)
    (blank : ∀ line ∈ doc, line.kind = .blank) : ∀ line ∈ doc, line.sect = at_ := by
  induction doc generalizing at_ with
  | nil => exact nofun
  | cons first doc ih =>
    have here : first.sect = at_ := by
      have kind : (readLine at_ first.text first.eol).kind ≠ .sect := by
        rw [← read.1, blank first List.mem_cons_self]
        simp
      rw [read.1]
      exact (noHeader_of_kind kind).2
    intro line member
    rcases List.mem_cons.mp member with rfl | member
    · exact here
    · rw [ih read.2 (fun other inside => blank other (List.mem_cons_of_mem _ inside)) line member,
        here]

section

variable {next : IniDoc} {m : Edits} {eol : Text}

def TopBlank (next : IniDoc) : Prop :=
  ∀ line ∈ next, sameKey line.sect [] → line.kind = .blank

/-- The first line written is the file's own, or a line for the top of the file
where only blank lines stand. -/
def StartsWith (next : IniDoc) (eol : Text) (m : Edits) (out : IniDoc) : Prop :=
  (∃ line, next.head? = some line ∧ out.head? = some (emitLine eol m 0 line)) ∨
    TopBlank next ∧ ∃ line, out.head? = some line ∧ (blockTexts m []).head? = some line.text

variable {out : IniDoc}

theorem head?_append_of_ne_nil (ne : out ≠ []) (more : IniDoc) :
    (out ++ more).head? = out.head? := by
  obtain ⟨first, rest, rfl⟩ := List.exists_cons_of_ne_nil ne
  rfl

theorem StartsWith.insertBlock (starts : StartsWith next eol m out) {sect : Text}
    (top : (∀ line ∈ out, line.kind = .blank) → sect = [] ∧ TopBlank next) :
    StartsWith next eol m (insertBlock out (blockOf eol m sect)) := by
  have whole := List.rdropWhile_append_rtakeWhile (p := fun line : IniLine => line.kind = .blank)
    (l := out)
  unfold Ini.insertBlock
  by_cases solid : out.rdropWhile (·.kind = .blank) = []
  · have blank : ∀ line ∈ out, line.kind = .blank := by
      intro line member
      simpa using List.rdropWhile_eq_nil_iff.mp solid line member
    obtain ⟨rfl, topBlank⟩ := top blank
    rw [solid, List.nil_append] at whole
    rw [solid, List.nil_append, whole]
    cases block : blockOf eol m [] with
    | nil => exact starts
    | cons line more =>
      refine .inr ⟨topBlank, line, rfl, ?_⟩
      rw [← blockOf_texts eol m [], block]
      rfl
  · have same : (out.rdropWhile (·.kind = .blank) ++ blockOf eol m sect ++
        out.rtakeWhile (·.kind = .blank)).head? = out.head? := by
      rw [List.append_assoc, head?_append_of_ne_nil solid, ← head?_append_of_ne_nil solid, whole]
    unfold StartsWith
    rw [same]
    exact starts

theorem emitFrom_starts (sound : m.Sound next) (read : ReadFrom [] next) {lines : IniDoc}
    {i : Nat} (suffix : next.drop i = lines)
    (kinds : ∀ line ∈ next.take i, ∃ other ∈ out, other.kind = line.kind)
    (starts : out = [] ∧ i = 0 ∨ StartsWith next eol m out) (some_ : out ≠ [] ∨ lines ≠ []) :
    StartsWith next eol m (emitFrom next eol m i out lines) := by
  induction lines generalizing i out with
  | nil => exact starts.resolve_left fun none => some_.resolve_right (by simp) none.1
  | cons line later ih =>
    obtain ⟨here, suffix'⟩ := drop_cons suffix
    have starts' : StartsWith next eol m (out ++ [emitLine eol m i line]) := by
      rcases starts with ⟨rfl, rfl⟩ | starts
      · refine .inl ⟨line, ?_, rfl⟩
        rw [List.drop_zero] at suffix
        rw [suffix, List.head?_cons]
      · have ne : out ≠ [] := by
          rintro rfl
          rcases starts with ⟨_, _, none⟩ | ⟨_, _, none, _⟩ <;> cases none
        unfold StartsWith
        rw [head?_append_of_ne_nil ne]
        exact starts
    have kinds' : ∀ line' ∈ next.take (i + 1),
        ∃ other ∈ out ++ [emitLine eol m i line], other.kind = line'.kind := by
      intro line' member
      rw [List.take_add_one, here, List.mem_append] at member
      rcases member with member | member
      · obtain ⟨other, inside, kind⟩ := kinds line' member
        exact ⟨other, by simp [inside], kind⟩
      · obtain rfl : line' = line := by simpa using member
        refine ⟨_, List.mem_append_right _ List.mem_cons_self, ?_⟩
        unfold emitLine
        split <;> rfl
    refine ih suffix' ?_ (.inr ?_) (.inl ?_)
    · intro line' member
      obtain ⟨other, inside, kind⟩ := kinds' line' member
      refine ⟨other, ?_, kind⟩
      unfold emitStep
      split
      · rw [Ini.insertBlock, List.mem_append, List.mem_append]
        rw [← List.rdropWhile_append_rtakeWhile (p := fun line : IniLine => line.kind = .blank)
          (l := out ++ [emitLine eol m i line]), List.mem_append] at inside
        rcases inside with inside | inside
        · exact .inl (.inl inside)
        · exact .inr inside
      · exact inside
    · unfold emitStep
      split
      · rename_i sect after
        refine starts'.insertBlock fun blank => ?_
        obtain ⟨member, last⟩ := appendAfter_spec after
        obtain ⟨texts, found⟩ := mem_appendedSections.mp member
        -- only blank lines so far: no section has been opened
        have silent : ∀ line' ∈ next.take (i + 1), line'.kind = .blank := by
          intro line' member
          obtain ⟨other, inside, kind⟩ := kinds' line' member
          rw [← kind]
          exact blank other inside
        rw [← List.take_append_drop (i + 1) next] at read
        have top : line.sect = [] :=
          sect_of_blanks read.of_append.1 silent line (by simp [List.take_add_one, here])
        obtain ⟨⟨line', here', same⟩, after'⟩ := lastIndex_eq_some last
        cases here.symm.trans here'
        have same : sameKey line.sect sect := by simpa using same
        have empty : sect = [] := by
          rw [← (sound.appended sect texts found).1, ← show lower line.sect = lower sect from same,
            top]
          rfl
        refine ⟨empty, fun other member inTop => ?_⟩
        obtain ⟨j, at_j⟩ := List.getElem?_of_mem member
        rcases Nat.lt_or_ge i j with behind | before
        · have := after' j other behind at_j
          simp [empty, inTop] at this
        · refine silent other (List.mem_of_getElem? (i := j) ?_)
          rw [List.getElem?_take_of_lt (by omega), at_j]
      · exact starts'
    · intro none
      unfold emitStep at none
      split at none
      · rw [Ini.insertBlock, List.append_eq_nil_iff, List.append_eq_nil_iff] at none
        have whole := List.rdropWhile_append_rtakeWhile
          (p := fun line : IniLine => line.kind = .blank) (l := out ++ [emitLine eol m i line])
        rw [none.1.1, none.2] at whole
        simp at whole
      · simp at none

theorem prefix_of_stop {p : Char → Bool} {mark text tail : Text} (free : ∀ c ∈ mark, p c = false)
    (ends : ∀ c ∈ tail.head?, p c = true) (starts : mark <+: text ++ tail) : mark <+: text := by
  induction text generalizing mark with
  | nil =>
    cases mark with
    | nil => exact List.prefix_rfl
    | cons c mark =>
      obtain ⟨more, whole⟩ := starts
      have : p c = true := ends c (by rw [← List.nil_append tail, ← whole]; rfl)
      rw [free c List.mem_cons_self] at this
      cases this
  | cons d text ih =>
    cases mark with
    | nil => exact List.nil_prefix
    | cons c mark =>
      obtain ⟨same, starts⟩ := List.cons_prefix_cons.mp starts
      exact List.cons_prefix_cons.mpr
        ⟨same, ih (fun x member => free x (List.mem_cons_of_mem _ member)) starts⟩

theorem Edits.Sound.mark_emit (sound : m.Sound next) (read : ReadFrom [] next) (laid : LaidOut next)
    (noGlue : NoGlue next m) (marked : byteOrderMark <+: emit next m) :
    (∃ line, next.head? = some line ∧
        byteOrderMark <+: (m.replacements.get 0).getD line.text) ∨
      TopBlank next ∧ ∃ text, (blockTexts m []).head? = some text ∧ byteOrderMark <+: text := by
  have free : ∀ c ∈ byteOrderMark, isNewline c = false := by decide
  obtain ⟨ne, newlines⟩ := dominantEol_newlines laid
  unfold emit at marked
  dsimp only at marked
  generalize dominantEol next = eol at ne newlines marked
  have orphansHead : ∀ c ∈ (textOf (orphans next eol m)).head?, isNewline c = true := by
    rcases orphans_eol next eol m with none | ⟨more, starts⟩
    · rw [none]
      exact nofun
    · obtain ⟨c, rest, rfl⟩ := List.exists_cons_of_ne_nil ne
      rw [starts]
      rintro _ ⟨⟩
      exact newlines c List.mem_cons_self
  have join : textOf (emitFrom next eol m 0 [] next ++ orphans next eol m) =
      textOf (emitFrom next eol m 0 [] next) ++ textOf (orphans next eol m) := by
    simp [textOf]
  rw [join] at marked
  cases whole : next with
  | nil =>
    rw [whole] at marked
    have := @prefix_of_stop isNewline byteOrderMark [] (textOf (orphans next eol m)) free orphansHead
      (by rw [whole]; exact marked)
    exact absurd this (by decide)
  | cons line later =>
    have starts : StartsWith next eol m (emitFrom next eol m 0 [] next) :=
      emitFrom_starts sound read List.drop_zero (by simp) (.inl ⟨rfl, rfl⟩) (.inr (by simp [whole]))
    obtain ⟨front, back, emitted, terminated, ends⟩ := sound.emitted laid noGlue ne newlines
    -- the first line is followed by a newline or by nothing
    have led (first : IniLine) (head : (emitFrom next eol m 0 [] next).head? = some first) :
        byteOrderMark <+: first.text := by
      obtain ⟨rest, list⟩ := List.head?_eq_some_iff.mp head
      rw [list] at marked
      have text : textOf (first :: rest) ++ textOf (orphans next eol m) =
          first.text ++ (first.eol ++ (textOf rest ++ textOf (orphans next eol m))) := by
        simp [textOf, List.flatMap_cons]
      rw [text] at marked
      refine prefix_of_stop free ?_ marked
      by_cases bare : first.eol = []
      · have last : rest = [] := by
          rw [list] at emitted
          cases front with
          | nil =>
            rcases ends with none | ⟨last, one, -, -⟩
            · rw [none] at emitted
              cases emitted
            · rw [one] at emitted
              exact (List.cons.inj emitted).2
          | cons f front =>
            obtain ⟨rfl, -⟩ := List.cons.inj emitted
            exact absurd bare (terminated first List.mem_cons_self).1
        rw [bare, last]
        exact orphansHead
      · have newlines : ∀ c ∈ first.eol, isNewline c = true := by
          have member : first ∈ front ++ back := by
            rw [← emitted, list]
            exact List.mem_cons_self
          rcases List.mem_append.mp member with member | member
          · exact (terminated first member).2.1
          · rcases ends with none | ⟨last, one, none, -⟩
            · rw [none] at member
              cases member
            · rw [one, List.mem_singleton] at member
              exact absurd (member ▸ none) bare
        obtain ⟨c, more, eol_eq⟩ := List.exists_cons_of_ne_nil bare
        rw [eol_eq] at newlines ⊢
        rintro _ ⟨⟩
        exact newlines c List.mem_cons_self
    rcases starts with ⟨line', head, first⟩ | ⟨topBlank, line', first, inside⟩
    · refine .inl ⟨line', by rw [← whole]; exact head, ?_⟩
      rw [← emitLine_text eol]
      exact led _ first
    · exact .inr ⟨by rw [← whole]; exact topBlank, line'.text, inside, led _ first⟩

theorem dropMark_eq {text : Text} (unmarked : ¬byteOrderMark <+: text) : dropMark text = text := by
  unfold dropMark
  rw [if_neg]
  rwa [List.isPrefixOf_iff_prefix]

/-! ### The last line -/

/-- The edits with the first line of a block joined to the line at an index. -/
def Edits.glue (m : Edits) (i : Nat) (text sect : Text) : Edits :=
  { m with
    replacements := m.replacements.set i text
    appended := m.appended.adjust sect List.tail }

variable {last : IniLine}

theorem lastIndex_concat {p : IniLine → Bool} (init : IniDoc) (meets : p last = true) :
    lastIndex p (init ++ [last]) = some init.length := by
  induction init with
  | nil => simp [lastIndex, meets]
  | cons line init ih => simp [lastIndex, ih]

theorem emitFrom_congr {m' : Edits} {lines : IniDoc} {i : Nat}
    (same : ∀ j out line, j < i + lines.length →
      emitStep next eol m out j line = emitStep next eol m' out j line) (out : IniDoc) :
    emitFrom next eol m i out lines = emitFrom next eol m' i out lines := by
  induction lines generalizing i out with
  | nil => rfl
  | cons line lines ih =>
    rw [emitFrom, emitFrom, same i out line (by simp)]
    apply ih
    intro j out line bound
    exact same j out line (by simp; omega)

theorem emit_report (next : IniDoc) (m : Edits) (report : MergeReport) :
    emit next { m with report := report } = emit next m := by
  unfold emit
  dsimp only
  rw [@emitFrom_congr next { m with report := report } _ m next 0 (fun _ _ _ _ => rfl) []]
  rfl

theorem appendedSections_glue (m : Edits) (i : Nat) (text sect : Text) :
    appendedSections (m.glue i text sect) = appendedSections m := by
  unfold appendedSections Edits.glue
  rw [Store.keys_adjust]

theorem appendAfter_glue (next : IniDoc) (m : Edits) (i j : Nat) (text sect : Text) :
    appendAfter next (m.glue i text sect) j = appendAfter next m j := by
  unfold appendAfter
  rw [appendedSections_glue]

theorem blockOf_glue {m : Edits} {sect other : Text} (ne : other ≠ sect) (eol : Text) (i : Nat)
    (text : Text) : blockOf eol (m.glue i text sect) other = blockOf eol m other := by
  unfold blockOf Edits.glue
  rw [Store.get_adjust, if_neg ne]

theorem emit_glue {init : IniDoc} {first : Text} {rest : List Text}
    (whole : next = init ++ [last]) (bare : last.eol = []) (solid : last.kind ≠ .blank)
    (unreplaced : m.replacements.get init.length = none)
    (found : m.appended.get (lower last.sect) = some (first :: rest))
    (lowered : ∀ sect ∈ appendedSections m, lower sect = sect) :
    emit next m = emit next (m.glue init.length (last.text ++ first) (lower last.sect)) := by
  have lastLine : lastLineOfSection next (lower last.sect) = some init.length := by
    unfold lastLineOfSection
    rw [whole]
    apply lastIndex_concat
    simpa using (show sameKey last.sect (lower last.sect) from (lower_lower _).symm)
  have member : lower last.sect ∈ appendedSections m := mem_appendedSections.mpr ⟨_, found⟩
  have after : appendAfter next m init.length = some (lower last.sect) := by
    cases here : appendAfter next m init.length with
    | none =>
      have := List.find?_eq_none.mp here _ member
      simp [lastLine] at this
    | some sect =>
      obtain ⟨inside, last'⟩ := appendAfter_spec here
      have same : lower sect = lower (lower last.sect) := sameKey_of_lastLine last' lastLine
      rw [lowered sect inside, lower_lower] at same
      rw [same]
  have front (j : Nat) (out : IniDoc) (line : IniLine) (bound : j < 0 + init.length) (eol : Text) :
      emitStep next eol m out j line =
        emitStep next eol (m.glue init.length (last.text ++ first) (lower last.sect)) out j line := by
    have line_eq : emitLine eol (m.glue init.length (last.text ++ first) (lower last.sect)) j line =
        emitLine eol m j line := by
      unfold emitLine Edits.glue
      rw [Store.get_set_of_ne (show j ≠ init.length by omega)]
    unfold emitStep
    rw [line_eq, appendAfter_glue]
    cases here : appendAfter next m j with
    | none => rfl
    | some sect =>
      have ne : sect ≠ lower last.sect := by
        rintro rfl
        have := (appendAfter_spec here).2.symm.trans lastLine
        have := Option.some.inj this
        omega
      dsimp only
      rw [blockOf_glue ne]
  unfold emit
  dsimp only
  generalize dominantEol next = eol
  have split_ (m : Edits) : emitFrom next eol m 0 [] next =
      emitStep next eol m (emitFrom next eol m 0 [] init) init.length last := by
    have append := emitFrom_append next eol m 0 [] init [last]
    rw [← whole, Nat.zero_add] at append
    exact append
  have init_eq : emitFrom next eol (m.glue init.length (last.text ++ first) (lower last.sect)) 0 []
      init = emitFrom next eol m 0 [] init :=
    (emitFrom_congr (fun j out line bound => front j out line bound eol) []).symm
  have orphans_eq : orphans next eol (m.glue init.length (last.text ++ first) (lower last.sect)) =
      orphans next eol m := by
    unfold orphans
    rw [appendedSections_glue]
    apply List.flatMap_congr
    intro sect inside
    have ne : sect ≠ lower last.sect := by
      rintro rfl
      have := (List.mem_filter.mp inside).2
      simp [lastLine] at this
    unfold orphanBlock
    rw [blockOf_glue ne]
  rw [split_ m, split_, init_eq, orphans_eq]
  have plain (out : IniDoc) (line : IniLine) (kind : line.kind ≠ .blank) (block : IniDoc) :
      insertBlock (out ++ [line]) block = out ++ [line] ++ block := by
    unfold insertBlock
    rw [List.rdropWhile_concat_neg _ _ _ (by simpa using kind),
      List.rtakeWhile_concat_neg _ _ _ (by simpa using kind), List.append_nil]
  have kept : emitLine eol m init.length last = last := by
    unfold emitLine
    rw [unreplaced]
  have joined : emitLine eol (m.glue init.length (last.text ++ first) (lower last.sect))
      init.length last = { last with text := last.text ++ first, eol := eol } := by
    unfold emitLine Edits.glue
    simp [bare]
  unfold emitStep
  rw [appendAfter_glue, after, kept, joined]
  dsimp only
  rw [plain _ _ solid, plain _ _ (by exact solid)]
  have block : blockOf eol (m.glue init.length (last.text ++ first) (lower last.sect))
      (lower last.sect) = rest.map fun text => { kind := .comment, text := text, eol := eol } := by
    unfold blockOf Edits.glue
    rw [Store.get_adjust, if_pos rfl, found]
    rfl
  rw [block]
  simp [textOf, blockOf, found, bare]

theorem noGlue_glue {init : IniDoc} (whole : next = init ++ [last]) (text sect : Text) :
    NoGlue next (m.glue init.length text sect) := by
  intro last' _ _ _ unreplaced
  have index : next.length - 1 = init.length := by simp [whole]
  rw [index, Edits.glue, Store.get_set_self] at unreplaced
  cases unreplaced

end

end EdvrPatch.Ini
