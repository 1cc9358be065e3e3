import EdvrPatch.Ini.MergeSteps

/-! Blocks behind the last line of a file. What the merge carries over starts with
a note, and a note that runs on from an unterminated line adds no setting; so the
written file can be read line by line all the same. -/
namespace EdvrPatch.Ini

open Lib

/-! ### Notes behind an unterminated line -/

def IsNote (text : Text) : Prop :=
  text = retiredNote ∨ text = carriedNote

theorem IsNote.chars {note : Text} (isNote : IsNote note) :
    ']' ∉ note ∧ '=' ∉ note ∧ ∃ rest, note = '#' :: rest := by
  rcases isNote with rfl | rfl
  · exact ⟨by decide, by decide, _, rfl⟩
  · exact ⟨by decide, by decide, _, rfl⟩

theorem trim_note {line note : Text} (isNote : IsNote note) (solid : trim line ≠ []) :
    ∃ blanks, (∀ c ∈ blanks, isBlank c = true) ∧ trim (line ++ note) = trim line ++ (blanks ++ note) := by
  obtain ⟨before, after, whole, blank, blank'⟩ := trim_spec line
  refine ⟨after, blank', ?_⟩
  have trimmed : Trimmed (trim line ++ (after ++ note)) := by
    refine ⟨?_, ?_⟩
    · intro c first
      rw [List.head?_append_of_ne_nil _ solid] at first
      exact (trimmed_trim line).1 c first
    · intro c last
      have ne : note ≠ [] := by
        obtain ⟨rest, rfl⟩ := isNote.chars.2.2
        simp
      rw [← List.append_assoc, List.getLast?_append_of_ne_nil _ ne] at last
      rcases isNote with rfl | rfl
      · cases last
        rfl
      · cases last
        rfl
  conv_lhs => rw [whole, List.append_assoc, List.append_assoc]
  rw [trim_blanks_append blank, trimmed.trim_eq]

theorem note_runOn {line note : Text} (isNote : IsNote note) (solid : trim line ≠ []) (at_ : Text) :
    (readLine at_ (line ++ note) []).sect = (readLine at_ line []).sect ∧
      ∀ sect key, ¬(readLine at_ line []).declares sect key →
        (readLine at_ (line ++ note) []).liveAt sect key = none := by
  obtain ⟨open_, noEq, -⟩ := isNote.chars
  obtain ⟨blanks, blank, body'⟩ := trim_note isNote solid
  have absent {c : Char} (out : c ∉ note) (solidC : isBlank c = false) : c ∉ blanks ++ note := by
    intro member
    rcases List.mem_append.mp member with member | member
    · rw [blank c member] at solidC
      cases solidC
    · exact out member
  have open_ := absent open_ rfl
  have noEq := absent noEq rfl
  generalize blanks ++ note = more at body' open_ noEq
  obtain ⟨c, rest, body⟩ := List.exists_cons_of_ne_nil solid
  rw [body, List.cons_append] at body'
  by_cases header : c = '['
  · subst header
    by_cases close : ']' ∈ rest
    · rw [readLine_header body close, readLine_header body' (List.mem_append_left _ close),
        takeWhile_append_of_mem close]
      exact ⟨rfl, fun sect key _ => IniLine.liveAt_of_kind (by simp) sect key⟩
    · have close' : ']' ∉ rest ++ more := by simp [close, open_]
      rw [readLine_unclosed body close, readLine_unclosed body' close']
      exact ⟨rfl, fun sect key _ => IniLine.liveAt_of_kind (by simp) sect key⟩
  cases marker : isMarker c with
  | true =>
    rw [readLine_marker body marker, readLine_marker body' marker]
    refine ⟨?_, fun sect key _ => IniLine.liveAt_of_kind ?_ sect key⟩
    · split <;> split <;> rfl
    · split <;> simp
  | false =>
    rw [readLine_plain body header marker, readLine_plain body' header marker,
      ← List.cons_append, splitKeyValue_eq, splitKeyValue_eq]
    by_cases eq : '=' ∈ c :: rest
    · rw [takeWhile_append_of_mem eq]
      by_cases token : isKeyToken (trim ((c :: rest).takeWhile (· != '='))) = true
      · rw [if_pos ⟨List.mem_append_left _ eq, token⟩, if_pos ⟨eq, token⟩]
        refine ⟨rfl, fun sect key silent => if_neg fun live => silent ⟨.inl rfl, ?_⟩⟩
        exact live.2.2
      · rw [if_neg fun h => token h.2, if_neg fun h => token h.2]
        exact ⟨rfl, fun sect key _ => IniLine.liveAt_of_kind (by simp) sect key⟩
    · have eq' : '=' ∉ c :: rest ++ more := by
        intro member
        rcases List.mem_append.mp member with member | member
        · exact eq member
        · exact noEq member
      rw [if_neg fun h => eq' h.1, if_neg fun h => eq h.1]
      exact ⟨rfl, fun sect key _ => IniLine.liveAt_of_kind (by simp) sect key⟩

def Edits.Led (P : Text → Prop) (m : Edits) (sect : Text) : Prop :=
  ∀ texts, m.appended.get sect = some texts → ∃ first rest, texts = first :: rest ∧ P first

section

variable {P : Text → Prop} {m : Edits} {sect : Text}

theorem Edits.Led.append (led : m.Led P sect) {other line : Text} (own : lower other = sect → P line) :
    (m.append other line).Led P sect := by
  intro texts found
  unfold Edits.append at found
  rw [Store.get_set] at found
  split at found
  · rename_i same
    obtain rfl := Option.some.inj found
    cases old : m.appended.get (lower other) with
    | none => exact ⟨line, [], rfl, own same.symm⟩
    | some texts =>
      obtain ⟨first, rest, rfl, holds⟩ := led texts (by rw [same, old])
      exact ⟨first, rest ++ [line], rfl, holds⟩
  · exact led texts found

theorem Edits.Led.append_behind (led : m.Led P sect) {other note : Text} (holds : P note)
    (line : Text) : ((m.append other note).append other line).Led P sect := by
  have front : (m.append other note).Led P sect := led.append fun _ => holds
  intro texts found
  unfold Edits.append at found
  rw [Store.get_set] at found
  split at found
  · rename_i same
    subst same
    obtain ⟨first, rest, starts, holds⟩ := front _ (Store.get_set_self ..)
    obtain rfl := Option.some.inj found
    rw [Store.get_set_self, Option.getD_some]
    exact ⟨first, rest ++ [line], by rw [starts]; rfl, holds⟩
  · rename_i other_
    exact front texts found

theorem Edits.Led.head (led : m.Led P sect) {text : Text}
    (starts : (blockTexts m sect).head? = some text) : P text := by
  unfold blockTexts at starts
  cases found : m.appended.get sect with
  | none =>
    rw [found] at starts
    cases starts
  | some texts =>
    obtain ⟨first, rest, rfl, holds⟩ := led texts found
    rw [found] at starts
    cases starts
    exact holds

theorem Edits.led_start (report : MergeReport) : ({ report := report } : Edits).Led P sect :=
  nofun

namespace Sources

variable {docs : Sources} {forced : List (Text × Text)}

theorem carry_led (notes : ∀ note, IsNote note → P note) (led : m.Led P sect) (sect' key' : Text) :
    (docs.carry m sect' key').Led P sect := by
  unfold carry
  dsimp only
  split
  · exact led
  · refine led.append_behind (notes _ ?_) _
    split
    · exact .inl rfl
    · exact .inr rfl

theorem mergeKey_led (notes : ∀ note, IsNote note → P note) (led : m.Led P sect)
    (sk : Text × Text) : (docs.mergeKey forced m sk).Led P sect := by
  unfold mergeKey
  split
  · exact led
  split
  · unfold mergeKnown
    dsimp only
    split
    · exact led
    split
    · unfold mergeChanged
      dsimp only
      split
      · split <;> exact led
      · split <;> exact led
    · split <;> exact led
  · unfold mergeUnknown
    dsimp only
    split
    · exact carry_led notes led _ _
    split
    · exact led
    split
    · exact led
    split
    · exact carry_led notes led _ _
    split
    · exact carry_led notes led _ _
    · exact led

theorem forceKey_led (led : m.Led P sect) {f : Text × Text}
    (own : lastDeclared docs.next (splitDotted f.1).1 (splitDotted f.1).2 = none →
      lower (splitDotted f.1).1 = sect → P (assignText (splitDotted f.1).2 f.2)) :
    (docs.forceKey m f).Led P sect := by
  unfold forceKey
  dsimp only
  split
  · exact led
  · rename_i last
    exact led.append (own last)

theorem edits_led (notes : ∀ note, IsNote note → P note)
    (own : ∀ f ∈ forced, lastDeclared docs.next (splitDotted f.1).1 (splitDotted f.1).2 = none →
      lower (splitDotted f.1).1 = sect → P (assignText (splitDotted f.1).2 f.2)) :
    (docs.edits forced).Led P sect := by
  have visits (keys : List (Text × Text)) (m : Edits) (led : m.Led P sect) :
      (keys.foldl (docs.mergeKey forced) m).Led P sect := by
    induction keys generalizing m with
    | nil => exact led
    | cons sk _ ih => exact ih _ (mergeKey_led notes led sk)
  have forces (fs : List (Text × Text)) (inside : fs ⊆ forced) (m : Edits) (led : m.Led P sect) :
      (fs.foldl docs.forceKey m).Led P sect := by
    induction fs generalizing m with
    | nil => exact led
    | cons f fs ih =>
      obtain ⟨here, later⟩ := List.cons_subset.mp inside
      exact ih later _ (forceKey_led led (own f here))
  exact forces forced (List.Subset.refl _) _ (visits _ _ (Edits.led_start _))

end Sources

end

/-! ### The first line -/

def isAscii (c : Char) : Bool :=
  c.toNat < 128

theorem mark_not_ascii : ∀ c ∈ byteOrderMark, isAscii c = false := by
  decide

theorem isAscii_of_isBlank {c : Char} (blank : isBlank c = true) : isAscii c = true := by
  simp only [isBlank, Bool.or_eq_true, beq_iff_eq] at blank
  rcases blank with rfl | rfl <;> rfl

def Edits.TopPlain (m : Edits) : Prop :=
  ∀ text, m.replacements.get 0 = some text → ¬byteOrderMark <+: text

theorem mark_behind_blanks {blanks rest : Text} (blank : ∀ c ∈ blanks, isBlank c = true)
    (marked : byteOrderMark <+: blanks ++ rest) : byteOrderMark <+: rest := by
  cases blanks with
  | nil => exact marked
  | cons c blanks =>
    have := (List.cons_prefix_cons.mp marked).1
    have ascii := isAscii_of_isBlank (blank c List.mem_cons_self)
    rw [← this] at ascii
    cases ascii

theorem mark_rewritten {next : IniDoc} (read : ReadFrom [] next) {i : Nat} {line : IniLine}
    (here : next[i]? = some line) (setting : isSetting line = true) {value : Text}
    (marked : byteOrderMark <+: rewritten next i value) : byteOrderMark <+: line.key := by
  obtain ⟨at_, parsed⟩ := read.mem (List.mem_of_getElem? here)
  have line_eq : next.getD i {} = line := by simp [List.getD_eq_getElem?_getD, here]
  unfold rewritten at marked
  rw [line_eq] at marked
  rw [parsed] at setting
  obtain ⟨indent, pad, rest, form, blank, blank', -⟩ := rewriteValue_form setting value
  rw [← parsed] at form
  rw [form] at marked
  have marked := mark_behind_blanks blank marked
  rw [List.append_assoc] at marked
  refine prefix_of_stop mark_not_ascii ?_ marked
  intro c first
  cases pad with
  | nil =>
    cases first
    rfl
  | cons d pad =>
    cases first
    exact isAscii_of_isBlank (blank' _ List.mem_cons_self)

theorem EditFor.topPlain {next : IniDoc} {sect key : Text} {m m' : Edits}
    (edit : EditFor next sect key m m') (read : ReadFrom [] next)
    (head : ∀ line, next.head? = some line → ¬byteOrderMark <+: line.key) (top : m.TopPlain) :
    m'.TopPlain := by
  have replace {i : Nat} {text : Text} (own : i = 0 → ¬byteOrderMark <+: text) :
      (m.replace i text).TopPlain := by
    intro other found
    unfold Edits.replace at found
    rw [Store.get_set] at found
    split at found
    · rename_i same
      obtain rfl := Option.some.inj found
      exact own same.symm
    · exact top other found
  cases edit with
  | silent report => exact top
  | rewrite i value report last free =>
    refine replace fun first marked => ?_
    subst first
    obtain ⟨line, here, declares⟩ := lastDeclared_spec last
    refine head line ?_ (mark_rewritten read here declares.setting marked)
    rw [List.head?_eq_getElem?, here]
  | commentOut i report last =>
    refine replace fun _ marked => ?_
    unfold Ini.commentOut at marked
    split at marked
    · rename_i blank
      have := @mark_behind_blanks _ [] (List.dropWhile_eq_nil_iff.mp blank)
        (by rw [List.append_nil]; exact marked)
      exact absurd this (by decide)
    · have := mark_behind_blanks (fun c member => List.mem_takeWhile_imp member) marked
      have := (List.cons_prefix_cons.mp this).1
      exact absurd this (by decide)
  | carry note value report isNote ok => exact top
  | add value report ok => exact top

/-! ### The whole file -/

section

variable {next : IniDoc} {m : Edits} {sect key : Text}

theorem Edits.Sound.glue (sound : m.Sound next) {i : Nat} {last : IniLine} {first : Text}
    {rest : List Text} (here : next[i]? = some last) (solid : last.kind ≠ .blank)
    (laid : LaidOut next) (found : m.appended.get (lower last.sect) = some (first :: rest))
    (same : ∀ at_, (readLine at_ (last.text ++ first) []).sect = (readLine at_ last.text []).sect) :
    (m.glue i (last.text ++ first) (lower last.sect)).Sound next where
  replaced j text replaced := by
    unfold Edits.glue at replaced
    rw [Store.get_set] at replaced
    split at replaced
    · rename_i index
      subst index
      obtain rfl := Option.some.inj replaced
      refine ⟨last, here, solid, fun c member => ?_, same⟩
      rcases List.mem_append.mp member with member | member
      · exact (laid.mem (List.mem_of_getElem? here)).1 c member
      · exact ((sound.appended _ _ found).2.2.2 first List.mem_cons_self).1 c member
    · exact sound.replaced j text replaced
  appended sect texts added := by
    unfold Edits.glue at added
    rw [Store.get_adjust] at added
    split at added
    · rename_i own
      rw [found] at added
      obtain rfl := Option.some.inj added
      obtain ⟨lowered, closed, free, lines⟩ := sound.appended _ _ found
      rw [own]
      exact ⟨lowered, closed, free, fun text member => lines text (List.mem_cons_of_mem _ member)⟩
    · exact sound.appended sect texts added

theorem ReadFrom.declares_again (read : ReadFrom [] next) {line : IniLine} (member : line ∈ next)
    (declares : (readLine line.sect line.text []).declares sect key) : line.declares sect key := by
  obtain ⟨at_, parsed⟩ := read.mem member
  rw [readLine_eol] at parsed
  rcases readLine_cases line.text [] with plain | ⟨name, header⟩
  · have own : line.sect = at_ := by
      rw [plain at_] at parsed
      exact congrArg (·.sect) parsed
    rw [own] at declares
    rw [parsed]
    exact declares
  · rw [header] at declares
    rcases declares.1 with kind | kind <;> cases kind

theorem liveIn_slotted_glue {init : IniDoc} {last : IniLine} (whole : next = init ++ [last])
    {text block : Text} (unreplaced : m.replacements.get init.length = none)
    (silent : last.liveAt sect key = none)
    (silent' : (readLine last.sect text []).liveAt sect key = none) :
    liveIn (slotted (m.glue init.length text block) 0 next) sect key =
      liveIn (slotted m 0 next) sect key := by
  have front (lines : IniDoc) (i : Nat) (inside : i + lines.length ≤ init.length) :
      slotted (m.glue init.length text block) i lines = slotted m i lines := by
    induction lines generalizing i with
    | nil => rfl
    | cons line lines ih =>
      rw [List.length_cons] at inside
      rw [slotted, slotted, ih (i + 1) (by omega)]
      unfold Edits.glue
      dsimp only
      rw [Store.get_set_of_ne (by omega)]
  rw [whole, slotted_append, slotted_append, liveIn_append, liveIn_append, front init 0 (by simp)]
  congr 1
  have replaced : (m.glue init.length text block).replacements.get init.length = some text :=
    Store.get_set_self ..
  simp only [Nat.zero_add, slotted, liveIn, unreplaced, replaced, Option.none_or]
  rw [silent, silent']

theorem Edits.Keyed.live_emit (keyed : m.Keyed next) (read : ReadFrom [] next) (laid : LaidOut next)
    (head : ∀ line, next.head? = some line → ¬byteOrderMark <+: line.text) (top : m.TopPlain)
    (block : m.Led (fun text => ¬byteOrderMark <+: text) [])
    (tail : ∀ last, next.getLast? = some last → last.eol = [] → last.kind ≠ .blank →
      m.replacements.get (next.length - 1) = none →
      m.Led IsNote (lower last.sect) ∧ ¬last.declares sect key) :
    liveIn (iniParse (emit next m)) sect key =
      (blockLive m sect key).or (liveIn (slotted m 0 next) sect key) := by
  have sound := keyed.sound read
  have first (line : IniLine) (here : next.head? = some line) :
      ¬byteOrderMark <+: (m.replacements.get 0).getD line.text := by
    cases found : m.replacements.get 0 with
    | none => exact head line here
    | some text => exact top text found
  by_cases noGlue : NoGlue next m
  · refine sound.live_emit read laid noGlue (dropMark_eq fun marked => ?_) sect key
    rcases sound.mark_emit read laid noGlue marked with ⟨line, here, led⟩ | ⟨-, text, starts, led⟩
    · exact first line here led
    · exact block.head starts led
  unfold NoGlue at noGlue
  push Not at noGlue
  obtain ⟨last, isLast, bare, solid, unreplaced, found⟩ := noGlue
  obtain ⟨noted, silent⟩ := tail last isLast bare solid unreplaced
  obtain ⟨texts, found⟩ := Option.ne_none_iff_exists'.mp found
  obtain ⟨note, rest, rfl, isNote⟩ := noted texts found
  obtain ⟨init, whole⟩ : ∃ init, next = init ++ [last] := List.getLast?_eq_some_iff.mp isLast
  have index : next.length - 1 = init.length := by simp [whole]
  rw [index] at unreplaced
  have here : next[init.length]? = some last := by simp [whole]
  have lastText : trim last.text ≠ [] := by
    intro none
    obtain ⟨at_, parsed⟩ := read.mem (List.mem_of_getElem? here)
    rw [readLine_blank (trim_eq_nil_iff.mp none)] at parsed
    exact solid (congrArg (·.kind) parsed)
  -- the note and the line it runs on from are one line
  have lowered (sect : Text) (member : sect ∈ appendedSections m) : lower sect = sect := by
    obtain ⟨texts, found⟩ := mem_appendedSections.mp member
    exact (sound.appended sect texts found).1
  rw [emit_glue whole bare solid unreplaced found lowered]
  have sound' : (m.glue init.length (last.text ++ note) (lower last.sect)).Sound next :=
    sound.glue here solid laid found fun at_ => (note_runOn isNote lastText at_).1
  have noGlue' : NoGlue next (m.glue init.length (last.text ++ note) (lower last.sect)) :=
    noGlue_glue whole _ _
  rw [sound'.live_emit read laid noGlue' (dropMark_eq fun marked => ?_) sect key]
  · have blocks : blockLive (m.glue init.length (last.text ++ note) (lower last.sect)) sect key =
        blockLive m sect key := by
      obtain ⟨plain, dead, -⟩ := note_reads isNote
      unfold blockLive blockTexts Edits.glue
      rw [Store.get_adjust]
      split
      · rename_i own
        rw [own, found, Option.map_some, Option.getD_some, Option.getD_some, List.tail_cons,
          liveFrom_cons, plain.sect, IniLine.liveAt_of_kind (dead sect), Option.or_none]
      · rfl
    rw [blocks, liveIn_slotted_glue whole unreplaced]
    · exact if_neg fun live => silent live.2
    · apply (note_runOn isNote lastText last.sect).2
      exact fun declares => silent (read.declares_again (List.mem_of_getElem? here) declares)
  · rcases sound'.mark_emit read laid noGlue' marked with
      ⟨line, head', led⟩ | ⟨topBlank, text, starts, led⟩
    · unfold Edits.glue at led
      rw [Store.get_set] at led
      split at led
      · rename_i zero
        rw [← zero, ← List.head?_eq_getElem?, head'] at here
        cases here
        obtain ⟨more, note_eq⟩ := isNote.chars.2.2
        refine head last head' (prefix_of_stop mark_not_ascii ?_ led)
        rw [note_eq]
        rintro _ ⟨⟩
        rfl
      · exact first line head' led
    · -- a block at the top stands behind blank lines only, so it was not joined to the last one
      have ne : [] ≠ lower last.sect := fun own =>
        solid (topBlank last (List.mem_of_getElem? here) own.symm)
      unfold blockTexts Edits.glue at starts
      rw [Store.get_adjust, if_neg ne] at starts
      exact block.head starts led

end

end EdvrPatch.Ini
