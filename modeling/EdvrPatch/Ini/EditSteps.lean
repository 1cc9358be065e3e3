import EdvrPatch.Ini.FileEnds

/-! What one step of the merge can do to the new file, and which settings it
leaves alone. A step edits a single setting: it rewrites or comments out one of
its lines, or appends to its section. -/
namespace EdvrPatch.Ini

open Lib

def SamePair (sect key sect' key' : Text) : Prop :=
  sameKey sect sect' ∧ sameKey key key'

instance (sect key sect' key' : Text) : Decidable (SamePair sect key sect' key') :=
  inferInstanceAs (Decidable (_ ∧ _))

theorem SamePair.declares {line : IniLine} {sect key sect' key' : Text}
    (declares : line.declares sect key) (declares' : line.declares sect' key') :
    SamePair sect key sect' key' :=
  ⟨declares.2.1.symm.trans declares'.2.1, declares.2.2.symm.trans declares'.2.2⟩

theorem IniLine.declares_congr {line : IniLine} {sect key sect' key' : Text}
    (same : SamePair sect key sect' key') : line.declares sect key ↔ line.declares sect' key' := by
  unfold IniLine.declares sameKey
  rw [show lower sect = lower sect' from same.1, show lower key = lower key' from same.2]

/-! ### Replaced lines -/

/-- Edits whose replaced lines are settings and stay so: a replacement opens no
section and is live under its own key only. -/
structure Edits.Keyed (next : IniDoc) (m : Edits) : Prop where
  replaced : ∀ i text, m.replacements.get i = some text → ∃ line, next[i]? = some line ∧
    isSetting line = true ∧ (∀ c ∈ text, isNewline c = false) ∧ NoHeader text ∧
    ∀ at_ sect key, (readLine at_ text []).liveAt sect key ≠ none → sameKey line.key key
  appended : ∀ sect texts, m.appended.get sect = some texts → lower sect = sect ∧ ']' ∉ sect ∧
    (∀ c ∈ sect, isNewline c = false) ∧
    ∀ text ∈ texts, (∀ c ∈ text, isNewline c = false) ∧ NoHeader text

theorem setting_noHeader {at_ : Text} {doc : IniDoc} (read : ReadFrom at_ doc) {line : IniLine}
    (member : line ∈ doc) (setting : isSetting line = true) : NoHeader line.text := by
  obtain ⟨at_, here⟩ := read.mem member
  have kind : (readLine at_ line.text line.eol).kind ≠ .sect := by
    rw [← here]
    rcases isSetting_iff.mp setting with kind | kind <;> simp [kind]
  exact (noHeader_of_kind kind).1

variable {next : IniDoc} {m : Edits}

theorem Edits.Keyed.sound (keyed : m.Keyed next) (read : ReadFrom [] next) : m.Sound next where
  replaced i text found := by
    obtain ⟨line, here, setting, free, plain, -⟩ := keyed.replaced i text found
    refine ⟨line, here, ?_, free, fun at_ => ?_⟩
    · rcases isSetting_iff.mp setting with kind | kind <;> simp [kind]
    · rw [plain.sect, (setting_noHeader read (List.mem_of_getElem? here) setting).sect]
  appended := keyed.appended

/-- No replaced line speaks for a setting that the old line did not declare. -/
def Quiet (next : IniDoc) (m : Edits) (sect key : Text) : Prop :=
  ∀ i text line, m.replacements.get i = some text → next[i]? = some line →
    ¬line.declares sect key → (readLine line.sect text []).liveAt sect key = none

theorem Edits.Keyed.quiet (keyed : m.Keyed next) (sect key : Text) : Quiet next m sect key := by
  intro i text line found here silent
  obtain ⟨line', here', setting, -, plain, own⟩ := keyed.replaced i text found
  cases here.symm.trans here'
  by_contra live
  have sameSect : sameKey line.sect sect := by
    by_contra other
    exact live (plain.liveAt key other)
  exact silent ⟨isSetting_iff.mp setting, sameSect, own _ _ _ live⟩

theorem slotted_append (m : Edits) (i : Nat) (lines more : IniDoc) :
    slotted m i (lines ++ more) = slotted m i lines ++ slotted m (i + lines.length) more := by
  induction lines generalizing i with
  | nil => rfl
  | cons line lines ih =>
    rw [List.cons_append, slotted, slotted, ih, List.cons_append, List.length_cons]
    congr 3
    omega

section

variable {next : IniDoc} {m : Edits} {sect key : Text}

theorem liveIn_slotted_none (quiet : Quiet next m sect key) {lines : IniDoc} {i : Nat}
    (suffix : next.drop i = lines) (absent : ∀ line ∈ lines, ¬line.declares sect key) :
    liveIn (slotted m i lines) sect key = none := by
  induction lines generalizing i with
  | nil => rfl
  | cons line later ih =>
    obtain ⟨here, suffix⟩ := drop_cons suffix
    have silent := absent line List.mem_cons_self
    rw [slotted, liveIn, ih suffix fun other member => absent other (List.mem_cons_of_mem _ member)]
    cases found : m.replacements.get i with
    | none => exact if_neg fun h => silent h.2
    | some text => exact quiet i text line found here silent

theorem liveIn_slotted_kept (quiet : Quiet next m sect key) {lines : IniDoc} {i : Nat}
    (kept : ∀ j line, lines[j]? = some line → next[i + j]? = some line ∧
      (line.declares sect key → m.replacements.get (i + j) = none)) :
    liveIn (slotted m i lines) sect key = liveIn lines sect key := by
  induction lines generalizing i with
  | nil => rfl
  | cons line later ih =>
    rw [slotted, liveIn, liveIn, ih (i := i + 1) fun j other at_j => ?_]
    · congr 1
      obtain ⟨here, unreplaced⟩ := kept 0 line rfl
      rw [Nat.add_zero] at here unreplaced
      by_cases declares : line.declares sect key
      · rw [unreplaced declares]
      · cases found : m.replacements.get i with
        | none => rfl
        | some text =>
          rw [quiet i text line found here declares]
          exact (if_neg fun h => declares h.2).symm
    · rw [Nat.add_assoc, Nat.add_comm 1 j]
      exact kept (j + 1) other at_j

theorem liveIn_slotted_same (quiet : Quiet next m sect key)
    (kept : ∀ i line, next[i]? = some line → line.declares sect key → m.replacements.get i = none) :
    liveIn (slotted m 0 next) sect key = liveIn next sect key := by
  apply liveIn_slotted_kept quiet
  intro j line here
  rw [Nat.zero_add]
  exact ⟨here, kept j line here⟩

theorem liveIn_slotted_last (quiet : Quiet next m sect key) {i : Nat}
    (last : lastDeclared next sect key = some i) {text value : Text}
    (found : m.replacements.get i = some text)
    (live : ∀ line, next[i]? = some line →
      (readLine line.sect text []).liveAt sect key = some value) :
    liveIn (slotted m 0 next) sect key = some value := by
  obtain ⟨⟨line, here, -⟩, after⟩ := lastIndex_eq_some last
  obtain ⟨inside, line_eq⟩ := List.getElem?_eq_some_iff.mp here
  have whole : next = next.take i ++ line :: next.drop (i + 1) := by
    rw [← line_eq, List.getElem_cons_drop, List.take_append_drop]
  have length : (next.take i).length = i := by simp; omega
  have later : liveIn (slotted m (i + 1) (next.drop (i + 1))) sect key = none := by
    apply liveIn_slotted_none quiet rfl
    intro other member
    obtain ⟨j, at_j⟩ := List.getElem?_of_mem member
    rw [List.getElem?_drop] at at_j
    simpa using after _ other (by omega) at_j
  conv_lhs => rw [whole]
  rw [slotted_append, liveIn_append, length, Nat.zero_add, slotted, liveIn, later, found]
  rw [live line here]
  rfl

end

/-! ### One step -/

/-- A setting that can be appended to a section and read back there. -/
structure Appendable (sect key value : Text) : Prop where
  token : isKeyToken key = true
  noEq : '=' ∉ key
  closed : ']' ∉ sect
  sectLine : ∀ c ∈ sect, isNewline c = false
  valueLine : ∀ c ∈ value, isNewline c = false

inductive EditFor (next : IniDoc) (sect key : Text) (m : Edits) : Edits → Prop where
  | silent (report : MergeReport) : EditFor next sect key m { m with report := report }
  | rewrite (i : Nat) (value : Text) (report : MergeReport) :
      lastDeclared next sect key = some i → (∀ c ∈ value, isNewline c = false) →
      EditFor next sect key m { m.replace i (rewritten next i value) with report := report }
  | commentOut (i : Nat) (report : MergeReport) : lastLive next sect key = some i →
      EditFor next sect key m
        { m.replace i (commentOut (next.getD i {}).text) with report := report }
  | carry (note value : Text) (report : MergeReport) : (note = retiredNote ∨ note = carriedNote) →
      Appendable sect key value →
      EditFor next sect key m
        { (m.append sect note).append sect (assignText key value) with report := report }
  | add (value : Text) (report : MergeReport) : Appendable sect key value →
      EditFor next sect key m { m.append sect (assignText key value) with report := report }

theorem note_reads {note : Text} (isNote : note = retiredNote ∨ note = carriedNote) :
    NoHeader note ∧ (∀ at_, (readLine at_ note []).kind ≠ .key) ∧ ∀ c ∈ note, isNewline c = false := by
  have body : ∃ rest, trim note = '#' :: rest := by
    rcases isNote with rfl | rfl <;> exact trim_cons_of_not_blank rfl _
  obtain ⟨rest, body⟩ := body
  refine ⟨(comment_reads body).1, (comment_reads body).2, ?_⟩
  rcases isNote with rfl | rfl <;> decide

variable {key : Text}

theorem token_line (token : isKeyToken key = true) : ∀ c ∈ key, isNewline c = false := by
  intro c member
  simp only [isKeyToken, Bool.and_eq_true, List.all_eq_true] at token
  have := token.2 c member
  cases newline : isNewline c with
  | false => rfl
  | true =>
    simp only [isNewline, Bool.or_eq_true, beq_iff_eq] at newline
    rcases newline with rfl | rfl <;> cases this

variable {sect : Text}

theorem Appendable.line {value : Text} (ok : Appendable sect key value) :
    (∀ c ∈ assignText key value, isNewline c = false) ∧ NoHeader (assignText key value) := by
  obtain ⟨found, reads, -⟩ := assignText_reads ok.token ok.noEq value
  refine ⟨?_, fun at_ => ?_⟩
  · intro c member
    rcases List.mem_append.mp member with member | member
    · rcases List.mem_append.mp member with member | member
      · exact token_line ok.token c member
      · exact (by decide : ∀ c ∈ " = ".toList, isNewline c = false) c member
    · exact ok.valueLine c member
  · rw [reads at_, reads []]

theorem newline_lower (free : ∀ c ∈ sect, isNewline c = false) :
    ∀ c ∈ lower sect, isNewline c = false := by
  intro c member
  cases newline : isNewline c with
  | false => rfl
  | true =>
    have inside : c ∈ sect := by
      apply mem_of_mem_lower _ member
      simp only [isNewline, Bool.or_eq_true, beq_iff_eq] at newline
      rcases newline with rfl | rfl <;> decide
    rw [← newline, free c inside]

theorem Edits.Keyed.append (keyed : m.Keyed next) {line : Text} (closed : ']' ∉ sect)
    (sectLine : ∀ c ∈ sect, isNewline c = false) (free : ∀ c ∈ line, isNewline c = false)
    (plain : NoHeader line) :
    (m.append sect line).Keyed next where
  replaced := keyed.replaced
  appended other texts found := by
    unfold Edits.append at found
    rw [Store.get_set] at found
    split at found
    · rename_i same
      subst same
      refine ⟨lower_lower sect, fun member => closed (mem_of_mem_lower (by decide) member),
        newline_lower sectLine, ?_⟩
      obtain rfl := Option.some.inj found
      intro text member
      rcases List.mem_append.mp member with member | member
      · cases old : m.appended.get (lower sect) with
        | none =>
          rw [old] at member
          cases member
        | some texts =>
          rw [old] at member
          exact (keyed.appended _ texts old).2.2.2 text member
      · rw [List.mem_singleton.mp member]
        exact ⟨free, plain⟩
    · exact keyed.appended other texts found

variable {i : Nat}

theorem Edits.Keyed.replace (keyed : m.Keyed next) {text : Text} {line : IniLine}
    (here : next[i]? = some line) (setting : isSetting line = true)
    (free : ∀ c ∈ text, isNewline c = false) (plain : NoHeader text)
    (own : ∀ at_ sect key, (readLine at_ text []).liveAt sect key ≠ none → sameKey line.key key) :
    (m.replace i text).Keyed next where
  replaced j other found := by
    unfold Edits.replace at found
    rw [Store.get_set] at found
    split at found
    · rename_i same
      subst same
      obtain rfl := Option.some.inj found
      exact ⟨line, here, setting, free, plain, own⟩
    · exact keyed.replaced j other found
  appended := keyed.appended

theorem Edits.Keyed.report (keyed : m.Keyed next) (report : MergeReport) :
    { m with report := report }.Keyed next :=
  ⟨keyed.replaced, keyed.appended⟩

theorem rewritten_reads (read : ReadFrom [] next) {line : IniLine} (here : next[i]? = some line)
    (setting : isSetting line = true) (value : Text) : ∃ found,
      (∀ at_, readLine at_ (rewritten next i value) [] =
        { kind := .key, text := rewritten next i value, sect := at_, key := line.key,
          value := found }) ∧
      (Trimmed value → CommentFree value → found = writtenValue value) := by
  obtain ⟨at_, parsed⟩ := read.mem (List.mem_of_getElem? here)
  have line_eq : next.getD i {} = line := by simp [List.getD_eq_getElem?_getD, here]
  unfold rewritten
  rw [line_eq]
  rw [parsed] at setting
  have := rewriteValue_reads setting value
  rw [← parsed] at this
  exact this

theorem rewritten_line (laid : LaidOut next) {line : IniLine} (here : next[i]? = some line)
    {value : Text} (free : ∀ c ∈ value, isNewline c = false) :
    ∀ c ∈ rewritten next i value, isNewline c = false := by
  intro c member
  have line_eq : next.getD i {} = line := by simp [List.getD_eq_getElem?_getD, here]
  unfold rewritten at member
  rw [line_eq] at member
  rcases mem_rewriteValue member with inside | inside | rfl | rfl
  · exact (laid.mem (List.mem_of_getElem? here)).1 c inside
  · exact free c inside
  · rfl
  · rfl

theorem lastDeclared_spec (last : lastDeclared next sect key = some i) :
    ∃ line, next[i]? = some line ∧ line.declares sect key := by
  obtain ⟨⟨line, here, declares⟩, -⟩ := lastIndex_eq_some last
  exact ⟨line, here, by simpa using declares⟩

theorem lastLive_spec (last : lastLive next sect key = some i) :
    ∃ line, next[i]? = some line ∧ line.kind = .key ∧ line.declares sect key := by
  obtain ⟨⟨line, here, live⟩, -⟩ := lastIndex_eq_some last
  exact ⟨line, here, by simpa using live⟩

theorem IniLine.declares.setting {line : IniLine} (declares : line.declares sect key) :
    isSetting line = true :=
  isSetting_iff.mpr declares.1

section

variable {next : IniDoc} {sect key : Text} {m m' : Edits}

theorem EditFor.keyed (edit : EditFor next sect key m m') (read : ReadFrom [] next)
    (laid : LaidOut next) (keyed : m.Keyed next) : m'.Keyed next := by
  cases edit with
  | silent report => exact keyed.report report
  | rewrite i value report last free =>
    obtain ⟨line, here, declares⟩ := lastDeclared_spec last
    obtain ⟨found, reads, -⟩ := rewritten_reads read here declares.setting value
    refine (keyed.replace here declares.setting (rewritten_line laid here free) ?_ ?_).report report
    · intro at_
      rw [reads at_, reads []]
    · intro at_ sect key live
      rw [reads at_] at live
      by_contra other
      refine live (IniLine.liveAt_of_key ?_ sect)
      exact other
  | commentOut i report last =>
    obtain ⟨line, here, kind, declares⟩ := lastLive_spec last
    have line_eq : next.getD i {} = line := by simp [List.getD_eq_getElem?_getD, here]
    have solid : trim line.text ≠ [] := by
      intro none
      obtain ⟨at_, parsed⟩ := read.mem (List.mem_of_getElem? here)
      rw [readLine_blank (trim_eq_nil_iff.mp none)] at parsed
      rw [parsed] at kind
      cases kind
    obtain ⟨plain, dead⟩ := commentOut_reads solid
    rw [line_eq]
    refine (keyed.replace here declares.setting ?_ plain ?_).report report
    · intro c member
      rcases mem_commentOut member with inside | rfl
      · exact (laid.mem (List.mem_of_getElem? here)).1 c inside
      · rfl
    · intro at_ sect key live
      exact absurd (IniLine.liveAt_of_kind (dead at_) sect key) live
  | carry note value report isNote ok =>
    obtain ⟨plain, -, free⟩ := note_reads isNote
    obtain ⟨free', plain'⟩ := ok.line
    exact ((keyed.append ok.closed ok.sectLine free plain).append ok.closed ok.sectLine free'
      plain').report report
  | add value report ok =>
    obtain ⟨free, plain⟩ := ok.line
    exact (keyed.append ok.closed ok.sectLine free plain).report report

/-! ### The other settings -/

theorem blockLive_append (keyed : m.Keyed next) (sect' line sect key : Text) :
    blockLive (m.append sect' line) sect key =
      if sameKey sect' sect then
        ((readLine sect line []).liveAt sect key).or (blockLive m sect key)
      else blockLive m sect key := by
  have texts : blockTexts (m.append sect' line) (lower sect) =
      if sameKey sect' sect then blockTexts m (lower sect) ++ [line]
      else blockTexts m (lower sect) := by
    unfold blockTexts Edits.append
    dsimp only
    rw [Store.get_set]
    by_cases same : lower sect = lower sect'
    · rw [if_pos same, if_pos (show sameKey sect' sect from same.symm), same]
      rfl
    · rw [if_neg same, if_neg fun h : sameKey sect' sect => same (Eq.symm h)]
  unfold blockLive
  rw [texts]
  split
  · have plain : ∀ text ∈ blockTexts m (lower sect), NoHeader text := by
      intro text member
      unfold blockTexts at member
      cases old : m.appended.get (lower sect) with
      | none =>
        rw [old] at member
        cases member
      | some texts =>
        rw [old] at member
        exact ((keyed.appended _ texts old).2.2.2 text member).2
    rw [liveFrom_append, sectAfter_plain plain, liveFrom_cons, liveFrom, Option.none_or]
  · rfl

theorem EditFor.appended_other (edit : EditFor next sect key m m') {other : Text}
    (ne : other ≠ lower sect) : m'.appended.get other = m.appended.get other := by
  have append (m : Edits) (line : Text) :
      (m.append sect line).appended.get other = m.appended.get other :=
    Store.get_set_of_ne ne
  cases edit with
  | silent report => rfl
  | rewrite i value report last free => rfl
  | commentOut i report last => rfl
  | carry note value report isNote ok => exact (append _ _).trans (append _ _)
  | add value report ok => exact append _ _

structure Untouched (next : IniDoc) (sect key : Text) (m m' : Edits) : Prop where
  block : blockLive m' sect key = blockLive m sect key
  lines : ∀ i line, next[i]? = some line → line.declares sect key →
    m'.replacements.get i = m.replacements.get i

theorem Untouched.refl (m : Edits) : Untouched next sect key m m :=
  ⟨rfl, fun _ _ _ _ => rfl⟩

theorem Untouched.trans {m'' : Edits} (first : Untouched next sect key m m')
    (second : Untouched next sect key m' m'') : Untouched next sect key m m'' :=
  ⟨second.block.trans first.block, fun i line here declares =>
    (second.lines i line here declares).trans (first.lines i line here declares)⟩

theorem EditFor.untouched {sect' key' : Text} (edit : EditFor next sect' key' m m')
    (keyed : m.Keyed next) (other : ¬SamePair sect' key' sect key) :
    Untouched next sect key m m' := by
  have replaced (i : Nat) (text : Text) (target : ∃ line, next[i]? = some line ∧
      line.declares sect' key') : ∀ j line, next[j]? = some line → line.declares sect key →
        (m.replacements.set i text).get j = m.replacements.get j := by
    intro j line here declares
    obtain ⟨line', here', declares'⟩ := target
    apply Store.get_set_of_ne
    rintro rfl
    cases here.symm.trans here'
    exact other (SamePair.declares declares' declares)
  have quiet {value : Text} (ok : Appendable sect' key' value) (same : sameKey sect' sect) :
      (readLine sect (assignText key' value) []).liveAt sect key = none := by
    obtain ⟨found, reads, -⟩ := assignText_reads ok.token ok.noEq value
    rw [reads]
    apply IniLine.liveAt_of_key
    exact fun sameKey' => other ⟨same, sameKey'⟩
  cases edit with
  | silent report => exact ⟨rfl, fun _ _ _ _ => rfl⟩
  | rewrite i value report last free => exact ⟨rfl, replaced i _ (lastDeclared_spec last)⟩
  | commentOut i report last =>
    obtain ⟨line, here, -, declares⟩ := lastLive_spec last
    exact ⟨rfl, replaced i _ ⟨line, here, declares⟩⟩
  | carry note value report isNote ok =>
    obtain ⟨plain, dead, free⟩ := note_reads isNote
    have keyed' := keyed.append ok.closed ok.sectLine free plain
    refine ⟨?_, fun _ _ _ _ => rfl⟩
    change blockLive ((m.append sect' note).append sect' (assignText key' value)) sect key = _
    rw [blockLive_append keyed', blockLive_append keyed]
    split
    · rename_i same
      rw [quiet ok same, IniLine.liveAt_of_kind (dead sect)]
      rfl
    · rfl
  | add value report ok =>
    refine ⟨?_, fun _ _ _ _ => rfl⟩
    change blockLive (m.append sect' (assignText key' value)) sect key = _
    rw [blockLive_append keyed]
    split
    · rename_i same
      rw [quiet ok same]
      rfl
    · rfl

end

end EdvrPatch.Ini
