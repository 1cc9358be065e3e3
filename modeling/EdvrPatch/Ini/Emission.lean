import EdvrPatch.Ini.Merge
import EdvrPatch.Ini.Reading

/-! What the written file says. The text `emit` writes is read back line by
line: a line of the new file in its own section, an appended block in the
section it was meant for. -/
namespace EdvrPatch.Ini

open Lib

/-! ### Parsed documents -/

/-- The lines of a document that was read from a text, the first of them in the
given section. -/
def ReadFrom : Text → IniDoc → Prop
  | _, [] => True
  | at_, line :: later => line = readLine at_ line.text line.eol ∧ ReadFrom line.sect later

theorem readLine_text (at_ text eol : Text) :
    (readLine at_ text eol).text = text ∧ (readLine at_ text eol).eol = eol := by
  unfold readLine
  dsimp only
  split
  · exact ⟨rfl, rfl⟩
  · split
    · split <;> exact ⟨rfl, rfl⟩
    · split
      · split <;> exact ⟨rfl, rfl⟩
      · split <;> exact ⟨rfl, rfl⟩

theorem readFrom_readLines (at_ : Text) (raw : List (Text × Text)) :
    ReadFrom at_ (readLines at_ raw) := by
  induction raw generalizing at_ with
  | nil => trivial
  | cons line raw ih =>
    obtain ⟨text, eol⟩ := line
    obtain ⟨sameText, sameEol⟩ := readLine_text at_ text eol
    refine ⟨?_, ih _⟩
    rw [sameText, sameEol]

def LaidOut : IniDoc → Prop
  | [] => True
  | line :: later => (∀ c ∈ line.text, isNewline c = false) ∧ (∀ c ∈ line.eol, isNewline c = true) ∧
      (later ≠ [] → line.eol ≠ []) ∧ LaidOut later

theorem laidOut_readLines (fuel : Nat) (text : Text) (enough : text.length ≤ fuel) (at_ : Text) :
    LaidOut (readLines at_ (splitLines fuel text)) ∧
      textOf (readLines at_ (splitLines fuel text)) = text := by
  induction fuel generalizing text at_ with
  | zero =>
    obtain rfl := List.length_eq_zero_iff.mp (Nat.le_zero.mp enough)
    exact ⟨trivial, rfl⟩
  | succ fuel ih =>
    by_cases ne : text = []
    · subst ne
      exact ⟨trivial, rfl⟩
    · obtain ⟨line, eol, rest, split, whole, free, newlines, ended, shorter⟩ :=
        @splitLines_cons fuel text ne
      obtain ⟨laid, joined⟩ := ih rest (by omega) (readLine at_ line eol).sect
      obtain ⟨sameText, sameEol⟩ := readLine_text at_ line eol
      rw [split, readLines]
      refine ⟨⟨?_, ?_, ?_, laid⟩, ?_⟩
      · rwa [sameText]
      · rwa [sameEol]
      · intro more
        rw [sameEol]
        apply ended
        rintro rfl
        apply more
        cases fuel <;> rfl
      · unfold textOf at joined ⊢
        rw [List.flatMap_cons, joined, sameText, sameEol, whole, List.append_assoc]

theorem iniParse_readFrom (text : Text) : ReadFrom [] (iniParse text) :=
  readFrom_readLines ..

theorem iniParse_laidOut (text : Text) : LaidOut (iniParse text) :=
  (laidOut_readLines _ _ (Nat.le_refl _) []).1

theorem textOf_iniParse (text : Text) : textOf (iniParse text) = dropMark text :=
  (laidOut_readLines _ _ (Nat.le_refl _) []).2

theorem LaidOut.of_append {front back : IniDoc} (laid : LaidOut (front ++ back)) :
    LaidOut front ∧ LaidOut back ∧ (back ≠ [] → ∀ line ∈ front, line.eol ≠ []) := by
  induction front with
  | nil => exact ⟨trivial, laid, nofun⟩
  | cons line front ih =>
    obtain ⟨free, newlines, ended, laid⟩ := laid
    obtain ⟨laidFront, laidBack, terminated⟩ := ih laid
    refine ⟨⟨free, newlines, fun more => ended (by simp [more]), laidFront⟩, laidBack, ?_⟩
    intro more other member
    rcases List.mem_cons.mp member with rfl | member
    · exact ended (by simp [more])
    · exact terminated more other member

variable {doc : IniDoc} {line : IniLine}

theorem LaidOut.mem (laid : LaidOut doc) (member : line ∈ doc) :
    (∀ c ∈ line.text, isNewline c = false) ∧ ∀ c ∈ line.eol, isNewline c = true := by
  obtain ⟨front, back, rfl⟩ := List.append_of_mem member
  obtain ⟨-, ⟨free, newlines, -, -⟩, -⟩ := laid.of_append
  exact ⟨free, newlines⟩

variable {at_ : Text}

theorem ReadFrom.of_append {front back : IniDoc} (read : ReadFrom at_ (front ++ back)) :
    ReadFrom at_ front ∧ ReadFrom ((front.getLast?.map (·.sect)).getD at_) back := by
  induction front generalizing at_ with
  | nil => exact ⟨trivial, read⟩
  | cons line front ih =>
    obtain ⟨here, later⟩ := read
    obtain ⟨readFront, readBack⟩ := ih later
    refine ⟨⟨here, readFront⟩, ?_⟩
    cases front with
    | nil => exact readBack
    | cons next front =>
      exact readBack

theorem ReadFrom.mem (read : ReadFrom at_ doc) (member : line ∈ doc) :
    ∃ at_, line = readLine at_ line.text line.eol := by
  obtain ⟨front, back, rfl⟩ := List.append_of_mem member
  exact ⟨_, read.of_append.2.1⟩

theorem dominantEol_newlines (laid : LaidOut doc) :
    dominantEol doc ≠ [] ∧ ∀ c ∈ dominantEol doc, isNewline c = true := by
  unfold dominantEol
  cases found : doc.find? (·.eol != []) with
  | none => decide
  | some line =>
    have ne : line.eol ≠ [] := by simpa using List.find?_some found
    exact ⟨ne, (laid.mem (List.mem_of_find?_eq_some found)).2⟩

/-! ### Stretches of lines that say the same -/

def Reads (texts others : List Text) : Prop :=
  ∀ at_, sectAfter at_ texts = sectAfter at_ others ∧
    ∀ sect key, liveFrom at_ texts sect key = liveFrom at_ others sect key

theorem Reads.refl (texts : List Text) : Reads texts texts :=
  fun _ => ⟨rfl, fun _ _ => rfl⟩

variable {texts others : List Text}

theorem Reads.symm (same : Reads texts others) : Reads others texts :=
  fun at_ => ⟨(same at_).1.symm, fun sect key => ((same at_).2 sect key).symm⟩

theorem Reads.trans {middle : List Text} (first : Reads texts middle)
    (second : Reads middle others) : Reads texts others :=
  fun at_ => ⟨(first at_).1.trans (second at_).1,
    fun sect key => ((first at_).2 sect key).trans ((second at_).2 sect key)⟩

theorem Reads.append {more others' : List Text} (front : Reads texts others)
    (back : Reads more others') : Reads (texts ++ more) (others ++ others') := by
  intro at_
  refine ⟨?_, fun sect key => ?_⟩
  · rw [sectAfter_append, sectAfter_append, (front at_).1, (back _).1]
  · rw [liveFrom_append, liveFrom_append, (front at_).1, (front at_).2, (back _).2]

theorem reads_blank (blank : ∀ text ∈ texts, ∀ c ∈ text, isBlank c = true) : Reads texts [] := by
  intro at_
  induction texts with
  | nil => exact ⟨rfl, fun _ _ => rfl⟩
  | cons text texts ih =>
    have past := readLine_blank (blank text List.mem_cons_self) at_ []
    obtain ⟨sect, live⟩ := ih fun other member => blank other (List.mem_cons_of_mem _ member)
    refine ⟨?_, fun s k => ?_⟩
    · rw [sectAfter_cons, past]
      exact sect
    · rw [liveFrom_cons, past, live]
      rfl

theorem reads_filter (texts : List Text) :
    Reads (texts.filter fun text => !text.isEmpty) texts :=
  fun at_ => ⟨(liveFrom_filter at_ texts [] []).2, fun sect key => (liveFrom_filter at_ texts sect key).1⟩

def BlankKinds (doc : IniDoc) : Prop :=
  ∀ line ∈ doc, line.kind = .blank → ∀ c ∈ line.text, isBlank c = true

variable {text : Text}

theorem readLine_kind_blank {eol : Text} (kind : (readLine at_ text eol).kind = .blank) :
    ∀ c ∈ text, isBlank c = true := by
  rw [← trim_eq_nil_iff]
  cases body : trim text with
  | nil => rfl
  | cons first rest =>
    by_cases header : first = '['
    · subst header
      by_cases close : ']' ∈ rest
      · rw [readLine_header body close] at kind
        cases kind
      · rw [readLine_unclosed body close] at kind
        cases kind
    · cases marker : isMarker first with
      | true =>
        rw [readLine_marker body marker] at kind
        split at kind <;> cases kind
      | false =>
        rw [readLine_plain body header marker] at kind
        split at kind <;> cases kind

theorem ReadFrom.blankKinds (read : ReadFrom at_ doc) : BlankKinds doc := by
  intro line member kind
  obtain ⟨at_, here⟩ := read.mem member
  rw [here] at kind
  exact readLine_kind_blank kind

theorem reads_insertBlock {out : IniDoc} (blanks : BlankKinds out) (block : IniDoc) :
    Reads ((insertBlock out block).map (·.text)) ((out ++ block).map (·.text)) := by
  have whole := List.rdropWhile_append_rtakeWhile (p := fun line : IniLine => line.kind = .blank)
    (l := out)
  have silent : Reads ((out.rtakeWhile (·.kind = .blank)).map (·.text)) [] := by
    apply reads_blank
    intro text member
    obtain ⟨line, inside, rfl⟩ := List.mem_map.mp member
    have kind := List.mem_rtakeWhile_imp inside
    exact blanks line ((List.rtakeWhile_suffix _ _).subset inside) (by simpa using kind)
  unfold insertBlock
  nth_rewrite 3 [← whole]
  simp only [List.map_append, List.append_assoc]
  refine (Reads.refl _).append ?_
  have front := (Reads.refl (block.map (·.text))).append silent
  have back := silent.append (Reads.refl (block.map (·.text)))
  rw [List.append_nil] at front
  exact front.trans back.symm

/-! ### Lines that open no section -/

theorem readLine_cases (text eol : Text) :
    (∀ at_, readLine at_ text eol = { readLine [] text eol with sect := at_ }) ∨
      ∃ sect, ∀ at_, readLine at_ text eol =
        { kind := .sect, text := text, eol := eol, sect := sect } := by
  cases body : trim text with
  | nil =>
    have blank := trim_eq_nil_iff.mp body
    exact .inl fun at_ => by rw [readLine_blank blank, readLine_blank blank]
  | cons first rest =>
    by_cases header : first = '['
    · subst header
      by_cases close : ']' ∈ rest
      · exact .inr ⟨_, fun at_ => readLine_header body close at_ eol⟩
      · exact .inl fun at_ => by rw [readLine_unclosed body close, readLine_unclosed body close]
    · refine .inl fun at_ => ?_
      cases marker : isMarker first with
      | true =>
        rw [readLine_marker body marker, readLine_marker body marker]
        split <;> rfl
      | false =>
        rw [readLine_plain body header marker, readLine_plain body header marker]
        split <;> rfl

def NoHeader (text : Text) : Prop :=
  ∀ at_, readLine at_ text [] = { readLine [] text [] with sect := at_ }

theorem NoHeader.sect (plain : NoHeader text) (at_ : Text) : (readLine at_ text []).sect = at_ := by
  rw [plain at_]

theorem noHeader_of_kind {eol : Text} (kind : (readLine at_ text eol).kind ≠ .sect) :
    NoHeader text ∧ (readLine at_ text eol).sect = at_ := by
  rcases readLine_cases text [] with plain | ⟨sect, header⟩
  · exact ⟨plain, by rw [readLine_eol, plain at_]⟩
  · rw [readLine_eol, header at_] at kind
    exact absurd rfl kind

variable {sect : Text}

theorem NoHeader.liveAt (plain : NoHeader text) (key : Text) (other : ¬sameKey at_ sect) :
    (readLine at_ text []).liveAt sect key = none := by
  apply IniLine.liveAt_of_sect
  rw [plain.sect]
  exact other

theorem sectAfter_plain (plain : ∀ text ∈ texts, NoHeader text) (at_ : Text) :
    sectAfter at_ texts = at_ := by
  induction texts with
  | nil => rfl
  | cons text texts ih =>
    rw [sectAfter_cons, (plain text List.mem_cons_self).sect]
    exact ih fun other member => plain other (List.mem_cons_of_mem _ member)

theorem liveFrom_plain_other (plain : ∀ text ∈ texts, NoHeader text) (key : Text)
    (other : ¬sameKey at_ sect) : liveFrom at_ texts sect key = none := by
  induction texts with
  | nil => rfl
  | cons text texts ih =>
    have here := plain text List.mem_cons_self
    rw [liveFrom_cons, here.sect, here.liveAt key other,
      ih fun other member => plain other (List.mem_cons_of_mem _ member)]
    rfl

variable {other : Text}

theorem liveFrom_plain_congr (plain : ∀ text ∈ texts, NoHeader text) (same : sameKey at_ other)
    (sect key : Text) : liveFrom at_ texts sect key = liveFrom other texts sect key := by
  induction texts with
  | nil => rfl
  | cons text texts ih =>
    have here := plain text List.mem_cons_self
    have sects : sameKey at_ sect ↔ sameKey other sect := by
      unfold sameKey at *
      rw [same]
    rw [liveFrom_cons, liveFrom_cons, here.sect, here.sect,
      ih fun other member => plain other (List.mem_cons_of_mem _ member), here at_, here other]
    unfold IniLine.liveAt IniLine.declares
    simp only [sects]

/-! ### The last line of a section -/

theorem lastIndex_eq_none {p : IniLine → Bool} :
    lastIndex p doc = none ↔ ∀ line ∈ doc, p line = false := by
  induction doc with
  | nil => simp [lastIndex]
  | cons line doc ih =>
    unfold lastIndex
    cases later : lastIndex p doc with
    | some i =>
      have := mt ih.mpr (by simp [later])
      simp only [reduceCtorEq, List.mem_cons, forall_eq_or_imp, false_iff]
      exact fun h => this h.2
    | none =>
      simp only [List.mem_cons, forall_eq_or_imp]
      cases p line <;> simp_all

theorem lastIndex_eq_some {p : IniLine → Bool} {i : Nat} (found : lastIndex p doc = some i) :
    (∃ line, doc[i]? = some line ∧ p line = true) ∧
      ∀ j line, i < j → doc[j]? = some line → p line = false := by
  induction doc generalizing i with
  | nil => cases found
  | cons first doc ih =>
    unfold lastIndex at found
    cases later : lastIndex p doc with
    | some k =>
      rw [later] at found
      obtain rfl : k + 1 = i := Option.some.inj found
      obtain ⟨here, after⟩ := ih later
      refine ⟨here, fun j line beyond at_ => ?_⟩
      cases j with
      | zero => omega
      | succ j => exact after j line (by omega) at_
    | none =>
      rw [later] at found
      dsimp only at found
      split at found
      · rename_i meets
        obtain rfl : 0 = i := Option.some.inj found
        refine ⟨⟨first, rfl, meets⟩, fun j line beyond at_ => ?_⟩
        cases j with
        | zero => omega
        | succ j => exact lastIndex_eq_none.mp later line (List.mem_of_getElem? at_)
      · cases found

variable {next : IniDoc}

theorem lastLineOfSection_congr (same : sameKey sect other) :
    lastLineOfSection next sect = lastLineOfSection next other := by
  unfold lastLineOfSection
  congr 1
  funext line
  have : sameKey line.sect sect ↔ sameKey line.sect other := by
    unfold sameKey at *
    rw [same]
  simp only [this]

/-! ### Edits that keep the sections -/

/-- A replaced line opens the section the old one did; an appended one opens
none. -/
structure Edits.Sound (next : IniDoc) (m : Edits) : Prop where
  replaced : ∀ i text, m.replacements.get i = some text → ∃ line, next[i]? = some line ∧
    line.kind ≠ .blank ∧ (∀ c ∈ text, isNewline c = false) ∧
    ∀ at_, (readLine at_ text []).sect = (readLine at_ line.text []).sect
  appended : ∀ sect texts, m.appended.get sect = some texts → lower sect = sect ∧ ']' ∉ sect ∧
    (∀ c ∈ sect, isNewline c = false) ∧
    ∀ text ∈ texts, (∀ c ∈ text, isNewline c = false) ∧ NoHeader text

def blockTexts (m : Edits) (sect : Text) : List Text :=
  (m.appended.get sect).getD []

/-- The lines as they are written, blocks right after the line they follow. -/
def plainTexts (next : IniDoc) (m : Edits) : Nat → IniDoc → List Text
  | _, [] => []
  | i, line :: later =>
    ((m.replacements.get i).getD line.text ::
      ((appendAfter next m i).map (blockTexts m)).getD []) ++ plainTexts next m (i + 1) later

/-- The lines of the new file with the replaced ones read again in their place. -/
def slotted (m : Edits) : Nat → IniDoc → IniDoc
  | _, [] => []
  | i, line :: later =>
    (match m.replacements.get i with
      | some text => readLine line.sect text []
      | none => line) :: slotted m (i + 1) later

def blockLive (m : Edits) (sect key : Text) : Option Text :=
  liveFrom sect (blockTexts m (lower sect)) sect key

variable {m : Edits}

theorem Edits.Sound.block (sound : m.Sound next) (sect : Text) :
    ∀ text ∈ blockTexts m sect, (∀ c ∈ text, isNewline c = false) ∧ NoHeader text := by
  intro text member
  unfold blockTexts at member
  cases found : m.appended.get sect with
  | none =>
    rw [found] at member
    cases member
  | some texts =>
    rw [found] at member
    exact (sound.appended sect texts found).2.2.2 text member

theorem mem_appendedSections :
    sect ∈ appendedSections m ↔ ∃ texts, m.appended.get sect = some texts := by
  unfold appendedSections
  rw [(List.perm_insertionSort _ _).mem_iff]
  exact Store.mem_keys_iff

theorem appendAfter_spec {i : Nat} (found : appendAfter next m i = some sect) :
    sect ∈ appendedSections m ∧ lastLineOfSection next sect = some i :=
  ⟨List.mem_of_find?_eq_some found, by simpa using List.find?_some found⟩

theorem sameKey_of_lastLine {i : Nat} (last : lastLineOfSection next sect = some i)
    (last' : lastLineOfSection next other = some i) : sameKey sect other := by
  obtain ⟨⟨line, here, same⟩, -⟩ := lastIndex_eq_some last
  obtain ⟨⟨line', here', same'⟩, -⟩ := lastIndex_eq_some last'
  cases here.symm.trans here'
  have same : sameKey line.sect sect := by simpa using same
  have same' : sameKey line.sect other := by simpa using same'
  exact same.symm.trans same'

theorem Edits.Sound.appendAfter_eq (sound : m.Sound next) {i : Nat}
    (last : lastLineOfSection next sect = some i) :
    ((appendAfter next m i).map (blockTexts m)).getD [] = blockTexts m (lower sect) := by
  have lowered : lastLineOfSection next (lower sect) = some i := by
    rw [← last]
    exact lastLineOfSection_congr (lower_lower sect)
  have unique (other : Text) (member : other ∈ appendedSections m)
      (here : lastLineOfSection next other = some i) : other = lower sect := by
    obtain ⟨texts, found⟩ := mem_appendedSections.mp member
    have same : lower other = lower sect := sameKey_of_lastLine here last
    rw [← (sound.appended other texts found).1, same]
  cases after : appendAfter next m i with
  | some other =>
    obtain ⟨member, here⟩ := appendAfter_spec after
    rw [unique other member here]
    rfl
  | none =>
    have none : m.appended.get (lower sect) = none := by
      by_contra some_
      obtain ⟨texts, found⟩ := Option.ne_none_iff_exists'.mp some_
      have := List.find?_eq_none.mp after (lower sect) (mem_appendedSections.mpr ⟨texts, found⟩)
      simp [lowered] at this
    simp [blockTexts, none]

theorem drop_cons {later : IniDoc} {i : Nat} (suffix : next.drop i = line :: later) :
    next[i]? = some line ∧ next.drop (i + 1) = later := by
  refine ⟨?_, ?_⟩
  · rw [← List.head?_drop, suffix, List.head?_cons]
  · rw [← List.tail_drop, suffix, List.tail_cons]

theorem BlankKinds.append {out more : IniDoc} (blanks : BlankKinds out) (blanks' : BlankKinds more) :
    BlankKinds (out ++ more) := by
  intro line member
  rcases List.mem_append.mp member with member | member
  · exact blanks line member
  · exact blanks' line member

theorem blankKinds_block (eol : Text) (m : Edits) (sect : Text) : BlankKinds (blockOf eol m sect) := by
  intro line member kind
  obtain ⟨text, -, rfl⟩ := List.mem_map.mp member
  cases kind

theorem BlankKinds.insertBlock {out block : IniDoc} (blanks : BlankKinds out)
    (blanks' : BlankKinds block) : BlankKinds (insertBlock out block) := by
  intro line member
  rcases List.mem_append.mp member with member | member
  · rcases List.mem_append.mp member with member | member
    · exact blanks line ((List.rdropWhile_prefix _ _).subset member)
    · exact blanks' line member
  · exact blanks line ((List.rtakeWhile_suffix _ _).subset member)

theorem emitLine_text (eol : Text) (m : Edits) (i : Nat) (line : IniLine) :
    (emitLine eol m i line).text = (m.replacements.get i).getD line.text := by
  unfold emitLine
  cases m.replacements.get i <;> rfl

theorem Edits.Sound.blankKinds_emitLine (sound : m.Sound next) {i : Nat}
    (here : next[i]? = some line) (blank : line.kind = .blank → ∀ c ∈ line.text, isBlank c = true)
    (eol : Text) : BlankKinds [emitLine eol m i line] := by
  intro other member kind
  obtain rfl := List.mem_singleton.mp member
  unfold emitLine at kind ⊢
  cases replaced : m.replacements.get i with
  | none =>
    rw [replaced] at kind
    exact blank kind
  | some text =>
    rw [replaced] at kind
    obtain ⟨line', here', notBlank, -⟩ := sound.replaced i text replaced
    cases here.symm.trans here'
    exact absurd kind notBlank

theorem blockOf_texts (eol : Text) (m : Edits) (sect : Text) :
    (blockOf eol m sect).map (·.text) = blockTexts m sect := by
  simp [blockOf, blockTexts, Function.comp_def]

theorem emitStep_reads (sound : m.Sound next) {i : Nat} (here : next[i]? = some line)
    (blank : line.kind = .blank → ∀ c ∈ line.text, isBlank c = true) (eol : Text) {out : IniDoc}
    (blanks : BlankKinds out) :
    BlankKinds (emitStep next eol m out i line) ∧
      Reads ((emitStep next eol m out i line).map (·.text))
        (out.map (·.text) ++ ((m.replacements.get i).getD line.text ::
          ((appendAfter next m i).map (blockTexts m)).getD [])) := by
  have blanks' := blanks.append (sound.blankKinds_emitLine here blank eol)
  unfold emitStep
  dsimp only
  cases appendAfter next m i with
  | none =>
    refine ⟨blanks', ?_⟩
    rw [List.map_append, List.map_singleton, emitLine_text]
    exact .refl _
  | some sect =>
    refine ⟨blanks'.insertBlock (blankKinds_block eol m sect), ?_⟩
    refine (reads_insertBlock blanks' _).trans ?_
    rw [List.map_append, List.map_append, List.map_singleton, emitLine_text, blockOf_texts,
      List.append_assoc, List.singleton_append]
    exact .refl _

theorem emitFrom_reads (sound : m.Sound next) (eol : Text) {lines : IniDoc} {i : Nat}
    (suffix : next.drop i = lines) (blanks : BlankKinds lines) {out : IniDoc}
    (blanksOut : BlankKinds out) :
    Reads ((emitFrom next eol m i out lines).map (·.text))
      (out.map (·.text) ++ plainTexts next m i lines) := by
  induction lines generalizing i out with
  | nil =>
    rw [plainTexts, List.append_nil]
    exact .refl _
  | cons line later ih =>
    obtain ⟨here, suffix⟩ := drop_cons suffix
    obtain ⟨blanksStep, reads⟩ := emitStep_reads sound here (blanks line List.mem_cons_self) eol
      blanksOut
    have rest := ih suffix (fun other member => blanks other (List.mem_cons_of_mem _ member))
      blanksStep
    refine rest.trans ?_
    rw [plainTexts, ← List.append_assoc]
    exact reads.append (.refl _)

/-! ### Reading the lines back -/

theorem Edits.Sound.slot (sound : m.Sound next) {i : Nat} (here : next[i]? = some line)
    (read : line = readLine at_ line.text line.eol) :
    (readLine at_ ((m.replacements.get i).getD line.text) []).sect = line.sect ∧
      ∀ sect key, (readLine at_ ((m.replacements.get i).getD line.text) []).liveAt sect key =
        (match m.replacements.get i with
          | some text => readLine line.sect text []
          | none => line).liveAt sect key := by
  have same : (readLine at_ line.text []).sect = line.sect := by
    conv_rhs => rw [read, readLine_eol]
  cases replaced : m.replacements.get i with
  | none =>
    refine ⟨same, fun sect key => ?_⟩
    conv_rhs => rw [read, readLine_eol]
    rfl
  | some text =>
    obtain ⟨line', here', -, -, sects⟩ := sound.replaced i text replaced
    cases here.symm.trans here'
    refine ⟨(sects at_).trans same, fun sect key => ?_⟩
    have sect_eq := (sects at_).trans same
    rw [Option.getD_some] at *
    rcases readLine_cases text [] with plain | ⟨sect', header⟩
    · rw [plain at_] at sect_eq
      rw [show at_ = line.sect from sect_eq]
    · dsimp only
      rw [header, header]

theorem Edits.Sound.slotted_other (sound : m.Sound next) {lines : IniDoc} {i : Nat}
    (suffix : next.drop i = lines) (read : ReadFrom at_ lines) (key : Text)
    (other : ∀ line ∈ lines, ¬sameKey line.sect sect) :
    liveIn (slotted m i lines) sect key = none := by
  induction lines generalizing i at_ with
  | nil => rfl
  | cons line later ih =>
    obtain ⟨here, suffix⟩ := drop_cons suffix
    obtain ⟨sect_eq, live⟩ := sound.slot here read.1
    rw [slotted, liveIn, ih suffix read.2 fun l member => other l (List.mem_cons_of_mem _ member),
      ← live]
    rw [IniLine.liveAt_of_sect (by rw [sect_eq]; exact other line List.mem_cons_self)]
    rfl

/-- The block of a section, once the lines from an index on hold its place. -/
def ownBlock (next : IniDoc) (m : Edits) (i : Nat) (sect key : Text) : Option Text :=
  match lastLineOfSection next sect with
  | some last => if i ≤ last then blockLive m sect key else none
  | none => none

theorem liveFrom_plainTexts (sound : m.Sound next) {lines : IniDoc} {i : Nat}
    (suffix : next.drop i = lines) (read : ReadFrom at_ lines) (sect key : Text) :
    liveFrom at_ (plainTexts next m i lines) sect key =
      (ownBlock next m i sect key).or (liveIn (slotted m i lines) sect key) := by
  induction lines generalizing i at_ with
  | nil =>
    have : ownBlock next m i sect key = none := by
      unfold ownBlock
      cases found : lastLineOfSection next sect with
      | none => rfl
      | some last =>
        obtain ⟨⟨line, here, -⟩, -⟩ := lastIndex_eq_some found
        have beyond := List.drop_eq_nil_iff.mp suffix
        have inside := (List.getElem?_eq_some_iff.mp here).1
        exact if_neg (by omega)
    rw [this]
    rfl
  | cons line later ih =>
    obtain ⟨here, suffix'⟩ := drop_cons suffix
    obtain ⟨sect_eq, live⟩ := sound.slot here read.1
    have step := ih suffix' read.2
    have plain : ∀ text ∈ ((appendAfter next m i).map (blockTexts m)).getD [], NoHeader text := by
      cases appendAfter next m i with
      | none => exact nofun
      | some other => exact fun text member => (sound.block other text member).2
    rw [plainTexts, liveFrom_append, sectAfter_cons, sect_eq, sectAfter_plain plain, step,
      liveFrom_cons, sect_eq, live, slotted, liveIn]
    -- where the section's last line is decides which of the three parts speaks
    unfold ownBlock
    cases found : lastLineOfSection next sect with
    | none =>
      have other : ¬sameKey line.sect sect := by
        have := lastIndex_eq_none.mp found line (List.mem_of_getElem? here)
        simpa using this
      rw [liveFrom_plain_other plain key other]
      simp
    | some last =>
      dsimp only
      by_cases this : last = i
      · subst this
        obtain ⟨⟨line', here', same⟩, after⟩ := lastIndex_eq_some found
        cases here.symm.trans here'
        have same : sameKey line.sect sect := by simpa using same
        have gone : liveIn (slotted m (last + 1) later) sect key = none := by
          apply sound.slotted_other suffix' read.2
          intro other member
          obtain ⟨j, at_j⟩ := List.getElem?_of_mem member
          rw [← suffix', List.getElem?_drop] at at_j
          simpa using after _ other (by omega) at_j
        rw [sound.appendAfter_eq found, gone, if_neg (by omega), if_pos (Nat.le_refl _),
          liveFrom_plain_congr (fun text member => (sound.block _ text member).2) same]
        rfl
      · have silent : liveFrom line.sect (((appendAfter next m i).map (blockTexts m)).getD [])
            sect key = none := by
          cases after : appendAfter next m i with
          | none => rfl
          | some other =>
            rw [after] at plain
            apply liveFrom_plain_other plain
            intro same
            obtain ⟨-, last'⟩ := appendAfter_spec after
            obtain ⟨⟨line', here', same'⟩, -⟩ := lastIndex_eq_some last'
            cases here.symm.trans here'
            have same' : sameKey line.sect other := by simpa using same'
            rw [lastLineOfSection_congr (show sameKey sect other from same.symm.trans same'),
              last'] at found
            exact this (Option.some.inj found).symm
        have bound : i + 1 ≤ last ↔ i ≤ last := by omega
        simp only [silent, bound, Option.none_or, Option.or_assoc]

/-! ### Sections at the end of the file -/

theorem trimmed_header (sect : Text) : trim ('[' :: sect ++ [']']) = '[' :: (sect ++ [']']) := by
  apply Trimmed.trim_eq
  refine ⟨?_, ?_⟩
  · rintro _ ⟨⟩
    rfl
  · intro c last
    rw [List.getLast?_concat, Option.mem_some] at last
    subst last
    rfl

theorem readLine_orphanHeader (closed : ']' ∉ sect) (at_ eol : Text) :
    (readLine at_ ('[' :: sect ++ [']']) eol) =
      { kind := .sect, text := '[' :: sect ++ [']'], eol := eol, sect := sect } := by
  have front : ∀ c ∈ sect, (c != ']') = true := by
    intro c member
    have : c ≠ ']' := fun same => closed (same ▸ member)
    simpa using this
  rw [readLine_header (trimmed_header sect) (by simp), List.takeWhile_append_of_pos front]
  simp

theorem orphanBlock_texts (eol : Text) (m : Edits) (sect : Text) :
    (orphanBlock eol m sect).map (·.text) =
      [] :: ('[' :: sect ++ [']']) :: blockTexts m sect := by
  rw [orphanBlock, List.map_cons, List.map_cons, blockOf_texts]

theorem liveFrom_orphanBlock (sound : m.Sound next) {sect' : Text}
    (member : sect' ∈ appendedSections m) (eol at_ sect key : Text) :
    liveFrom at_ ((orphanBlock eol m sect').map (·.text)) sect key =
        (if lower sect = sect' then blockLive m sect key else none) ∧
      sectAfter at_ ((orphanBlock eol m sect').map (·.text)) = sect' := by
  obtain ⟨texts, found⟩ := mem_appendedSections.mp member
  obtain ⟨lowered, closed, -, -⟩ := sound.appended sect' texts found
  have plain : ∀ text ∈ blockTexts m sect', NoHeader text :=
    fun text inside => (sound.block sect' text inside).2
  rw [orphanBlock_texts]
  refine ⟨?_, ?_⟩
  · rw [liveFrom_cons, @readLine_blank [] nofun, liveFrom_cons, readLine_orphanHeader closed,
      IniLine.liveAt_of_kind (by simp), IniLine.liveAt_of_kind (by simp), Option.or_none,
      Option.or_none]
    split
    · rename_i same
      subst same
      exact liveFrom_plain_congr plain (show sameKey (lower sect) sect from lower_lower sect) sect key
    · rename_i other
      apply liveFrom_plain_other plain
      intro same
      exact other (Eq.trans same.symm lowered)
  · rw [sectAfter_cons, @readLine_blank [] nofun, sectAfter_cons, readLine_orphanHeader closed,
      sectAfter_plain plain]

theorem liveFrom_orphans (sound : m.Sound next) (eol : Text) {sects : List Text}
    (all : ∀ sect' ∈ sects, sect' ∈ appendedSections m) (at_ sect key : Text) :
    liveFrom at_ ((sects.flatMap (orphanBlock eol m)).map (·.text)) sect key =
      if lower sect ∈ sects then blockLive m sect key else none := by
  induction sects generalizing at_ with
  | nil => rfl
  | cons sect' sects ih =>
    obtain ⟨live, after⟩ := liveFrom_orphanBlock sound (all sect' List.mem_cons_self) eol at_ sect key
    rw [List.flatMap_cons, List.map_append, liveFrom_append, after, live,
      ih fun other member => all other (List.mem_cons_of_mem _ member)]
    by_cases here : lower sect = sect'
    · simp only [here, List.mem_cons_self, if_true]
      split <;> cases blockLive m sect key <;> rfl
    · simp [here]

theorem blockLive_of_not_mem (absent : lower sect ∉ appendedSections m) (key : Text) :
    blockLive m sect key = none := by
  have none : m.appended.get (lower sect) = none := by
    by_contra some_
    exact absent (mem_appendedSections.mpr (Option.ne_none_iff_exists'.mp some_))
  simp [blockLive, blockTexts, none, liveFrom]

theorem liveFrom_emitted (sound : m.Sound next) (read : ReadFrom [] next) (eol sect key : Text) :
    liveFrom [] ((emitFrom next eol m 0 [] next ++ orphans next eol m).map (·.text)) sect key =
      (blockLive m sect key).or (liveIn (slotted m 0 next) sect key) := by
  have lines := @emitFrom_reads next m sound eol next 0 List.drop_zero read.blankKinds [] nofun
  rw [List.map_append, liveFrom_append, (lines []).2]
  unfold orphans
  rw [liveFrom_orphans sound eol fun sect' member => (List.mem_filter.mp member).1]
  simp only [List.map_nil, List.nil_append]
  rw [liveFrom_plainTexts sound (List.drop_zero (l := next)) read]
  have lowered : lastLineOfSection next (lower sect) = lastLineOfSection next sect :=
    lastLineOfSection_congr (lower_lower sect)
  unfold ownBlock
  simp only [List.mem_filter, lowered]
  cases found : lastLineOfSection next sect with
  | some last => simp
  | none =>
    by_cases member : lower sect ∈ appendedSections m
    · simp [member]
    · simp [member, blockLive_of_not_mem member]

/-! ### The text that is written -/

def Terminated (doc : IniDoc) : Prop :=
  ∀ line ∈ doc, line.eol ≠ [] ∧ (∀ c ∈ line.eol, isNewline c = true) ∧
    ∀ c ∈ line.text, isNewline c = false

theorem Terminated.append {more : IniDoc} (terminated : Terminated doc)
    (terminated' : Terminated more) : Terminated (doc ++ more) := by
  intro line member
  rcases List.mem_append.mp member with member | member
  · exact terminated line member
  · exact terminated' line member

theorem Terminated.subset {part : IniDoc} (terminated : Terminated doc) (inside : part ⊆ doc) :
    Terminated part :=
  fun line member => terminated line (inside member)

theorem pieces_singleton (free : ∀ c ∈ text, isNewline c = false) :
    pieces isNewline text = [text].filter fun text => !text.isEmpty := by
  cases text with
  | nil => rfl
  | cons c text => exact pieces_eq_singleton free (by simp)

theorem Terminated.pieces (terminated : Terminated doc) (rest : Text) :
    pieces isNewline (textOf doc ++ rest) =
      (doc.map (·.text)).filter (fun text => !text.isEmpty) ++ pieces isNewline rest := by
  induction doc with
  | nil => rfl
  | cons line doc ih =>
    obtain ⟨ne, newlines, free⟩ := terminated line List.mem_cons_self
    have later := ih (terminated.subset (List.subset_cons_self ..))
    unfold textOf at later ⊢
    rw [List.flatMap_cons, List.append_assoc, List.append_assoc, pieces_append_append newlines ne,
      later, pieces_singleton free, ← List.append_assoc, ← List.filter_append]
    rfl

/-- The last line is not left without a terminator when a block follows it. -/
def NoGlue (next : IniDoc) (m : Edits) : Prop :=
  ∀ last, next.getLast? = some last → last.eol = [] → last.kind ≠ .blank →
    m.replacements.get (next.length - 1) = none → m.appended.get (lower last.sect) = none

theorem emitFrom_append (next : IniDoc) (eol : Text) (m : Edits) (i : Nat) (out lines more : IniDoc) :
    emitFrom next eol m i out (lines ++ more) =
      emitFrom next eol m (i + lines.length) (emitFrom next eol m i out lines) more := by
  induction lines generalizing i out with
  | nil => rfl
  | cons line lines ih =>
    rw [List.cons_append, emitFrom, ih, emitFrom, List.length_cons]
    congr 1
    omega

section

variable {next : IniDoc} {m : Edits} {eol : Text}

theorem Edits.Sound.terminated_block (sound : m.Sound next) (ne : eol ≠ [])
    (newlines : ∀ c ∈ eol, isNewline c = true) (sect : Text) : Terminated (blockOf eol m sect) := by
  intro line member
  obtain ⟨text, inside, rfl⟩ := List.mem_map.mp member
  exact ⟨ne, newlines, (sound.block sect text inside).1⟩

theorem Edits.Sound.terminated_emitLine (sound : m.Sound next) (ne : eol ≠ [])
    (newlines : ∀ c ∈ eol, isNewline c = true) {i : Nat} {line : IniLine}
    (free : ∀ c ∈ line.text, isNewline c = false) (ends : ∀ c ∈ line.eol, isNewline c = true)
    (ended : line.eol ≠ [] ∨ (m.replacements.get i).isSome = true) :
    Terminated [emitLine eol m i line] := by
  intro other member
  obtain rfl := List.mem_singleton.mp member
  unfold emitLine
  cases replaced : m.replacements.get i with
  | none =>
    rw [replaced] at ended
    exact ⟨ended.resolve_right nofun, ends, free⟩
  | some text =>
    obtain ⟨line', -, -, free', -⟩ := sound.replaced i text replaced
    dsimp only
    split
    · exact ⟨ne, newlines, free'⟩
    · rename_i own
      exact ⟨own, ends, free'⟩

theorem Terminated.emitStep (sound : m.Sound next) (ne : eol ≠ [])
    (newlines : ∀ c ∈ eol, isNewline c = true) {i : Nat} {line : IniLine} {out : IniDoc}
    (terminated : Terminated out) (here : Terminated [emitLine eol m i line]) :
    Terminated (emitStep next eol m out i line) := by
  unfold Ini.emitStep
  split
  · rename_i sect _
    have both := terminated.append here
    refine ((both.subset ?_).append (sound.terminated_block ne newlines sect)).append
      (both.subset ?_)
    · exact (List.rdropWhile_prefix _ _).subset
    · exact (List.rtakeWhile_suffix _ _).subset
  · exact terminated.append here

theorem Terminated.emitFrom (sound : m.Sound next) (ne : eol ≠ [])
    (newlines : ∀ c ∈ eol, isNewline c = true) {lines : IniDoc} (i : Nat) {out : IniDoc}
    (terminated : Terminated out) (all : Terminated lines) :
    Terminated (emitFrom next eol m i out lines) := by
  induction lines generalizing i out with
  | nil => exact terminated
  | cons line lines ih =>
    obtain ⟨ended, ends, free⟩ := all line List.mem_cons_self
    refine ih (i + 1) ?_ (all.subset (List.subset_cons_self ..))
    exact terminated.emitStep sound ne newlines
      (sound.terminated_emitLine ne newlines free ends (.inl ended))

theorem Edits.Sound.emitted (sound : m.Sound next) (laid : LaidOut next) (noGlue : NoGlue next m)
    (ne : eol ≠ []) (newlines : ∀ c ∈ eol, isNewline c = true) :
    ∃ front back, emitFrom next eol m 0 [] next = front ++ back ∧ Terminated front ∧
      (back = [] ∨ ∃ last, back = [last] ∧ last.eol = [] ∧ ∀ c ∈ last.text, isNewline c = false) := by
  rcases List.eq_nil_or_concat next with empty | ⟨init, last, whole⟩
  · refine ⟨[], [], ?_, nofun, .inl rfl⟩
    rw [empty]
    rfl
  · rw [List.concat_eq_append] at whole
    rw [whole] at laid
    obtain ⟨laidInit, ⟨free, ends, -, -⟩, ended⟩ := laid.of_append
    have terminatedInit : Terminated init := fun line member =>
      ⟨ended (by simp) line member, (laidInit.mem member).2, (laidInit.mem member).1⟩
    have index : next.length - 1 = init.length := by simp [whole]
    have split_ : Ini.emitFrom next eol m 0 [] next =
        Ini.emitStep next eol m (Ini.emitFrom next eol m 0 [] init) init.length last := by
      have append := emitFrom_append next eol m 0 [] init [last]
      rw [← whole, Nat.zero_add] at append
      exact append
    have front : Terminated (Ini.emitFrom next eol m 0 [] init) :=
      Terminated.emitFrom sound ne newlines 0 nofun terminatedInit
    rw [split_]
    by_cases lastEnded : last.eol ≠ [] ∨ (m.replacements.get init.length).isSome = true
    · refine ⟨_, [], (List.append_nil _).symm, ?_, .inl rfl⟩
      exact front.emitStep sound ne newlines
        (sound.terminated_emitLine ne newlines free ends lastEnded)
    · obtain ⟨bare, unreplaced⟩ : last.eol = [] ∧ m.replacements.get init.length = none := by
        simpa using lastEnded
      have kept : emitLine eol m init.length last = last := by
        unfold emitLine
        rw [unreplaced]
      unfold Ini.emitStep
      rw [kept]
      cases after : appendAfter next m init.length with
      | none => exact ⟨_, [last], rfl, front, .inr ⟨last, rfl, bare, free⟩⟩
      | some sect =>
        -- a block after the unterminated line: it can only be a blank one
        obtain ⟨member, lastLine⟩ := appendAfter_spec after
        obtain ⟨texts, found⟩ := mem_appendedSections.mp member
        have same : lower last.sect = sect := by
          obtain ⟨⟨line, here, same⟩, -⟩ := lastIndex_eq_some lastLine
          have : next[init.length]? = some last := by simp [whole]
          have same : sameKey line.sect sect := by simpa using same
          rw [← Option.some.inj (here.symm.trans this), show lower line.sect = lower sect from same,
            (sound.appended sect texts found).1]
        have kind : last.kind = .blank := by
          by_contra other
          have := noGlue last (by simp [whole]) bare other (by rw [index, unreplaced])
          rw [same, found] at this
          cases this
        unfold insertBlock
        dsimp only
        rw [List.rdropWhile_concat_pos _ _ _ (by simpa using kind),
          List.rtakeWhile_concat_pos _ _ _ (by simpa using kind), ← List.append_assoc]
        refine ⟨_, [last], rfl, ?_, .inr ⟨last, rfl, bare, free⟩⟩
        refine ((front.subset ?_).append (sound.terminated_block ne newlines sect)).append
          (front.subset ?_)
        · exact (List.rdropWhile_prefix _ _).subset
        · exact (List.rtakeWhile_suffix _ _).subset

theorem Edits.Sound.terminated_orphans (sound : m.Sound next) (ne : eol ≠ [])
    (newlines : ∀ c ∈ eol, isNewline c = true) : Terminated (orphans next eol m) := by
  intro line member
  obtain ⟨sect, inside, member⟩ := List.mem_flatMap.mp member
  obtain ⟨texts, found⟩ := mem_appendedSections.mp (List.mem_filter.mp inside).1
  obtain ⟨-, -, free, -⟩ := sound.appended sect texts found
  rcases List.mem_cons.mp member with rfl | member
  · exact ⟨ne, newlines, nofun⟩
  rcases List.mem_cons.mp member with rfl | member
  · refine ⟨ne, newlines, fun c inside => ?_⟩
    simp only [List.cons_append, List.mem_cons, List.mem_append, List.not_mem_nil, or_false] at inside
    rcases inside with rfl | inside | rfl
    · rfl
    · exact free c inside
    · rfl
  · exact sound.terminated_block ne newlines sect line member

theorem orphans_eol (next : IniDoc) (eol : Text) (m : Edits) :
    orphans next eol m = [] ∨ ∃ more, textOf (orphans next eol m) = eol ++ more := by
  unfold orphans
  cases (appendedSections m).filter fun sect => lastLineOfSection next sect = none with
  | nil => exact .inl rfl
  | cons sect sects => exact .inr ⟨_, by simp [textOf, orphanBlock, List.flatMap_cons]; rfl⟩

theorem Edits.Sound.pieces_emit (sound : m.Sound next) (laid : LaidOut next)
    (noGlue : NoGlue next m) :
    pieces isNewline (emit next m) =
      ((emitFrom next (dominantEol next) m 0 [] next ++ orphans next (dominantEol next) m).map
        (·.text)).filter fun text => !text.isEmpty := by
  obtain ⟨ne, newlines⟩ := dominantEol_newlines laid
  unfold emit
  dsimp only
  generalize dominantEol next = eol at ne newlines
  obtain ⟨front, back, whole, terminated, ends⟩ := sound.emitted laid noGlue ne newlines
  have tail := sound.terminated_orphans ne newlines
  have all := terminated.pieces (textOf back ++ textOf (orphans next eol m))
  have last : pieces isNewline (textOf (orphans next eol m)) =
      ((orphans next eol m).map (·.text)).filter fun text => !text.isEmpty := by
    have := tail.pieces []
    rw [List.append_nil, pieces_nil, List.append_nil] at this
    exact this
  have join : textOf (front ++ back ++ orphans next eol m) =
      textOf front ++ (textOf back ++ textOf (orphans next eol m)) := by
    simp [textOf]
  have middle : pieces isNewline (textOf back ++ textOf (orphans next eol m)) =
      (back.map (·.text)).filter (fun text => !text.isEmpty) ++
        pieces isNewline (textOf (orphans next eol m)) := by
    rcases ends with rfl | ⟨line, rfl, bare, free⟩
    · rfl
    · have one : textOf [line] = line.text := by simp [textOf, bare]
      rw [one, List.map_singleton, ← pieces_singleton free]
      rcases orphans_eol next eol m with none | ⟨more, starts⟩
      · rw [none]
        simp [textOf]
      · rw [starts, pieces_append_append newlines ne, pieces_of_all newlines]
  rw [whole, join, all, middle, last]
  simp only [List.map_append, List.filter_append, List.append_assoc]

/-- What the written file says about a setting: what the block of its section
says, and before that what its lines say. -/
theorem Edits.Sound.live_emit (sound : m.Sound next) (read : ReadFrom [] next) (laid : LaidOut next)
    (noGlue : NoGlue next m) (unmarked : dropMark (emit next m) = emit next m) (sect key : Text) :
    liveIn (iniParse (emit next m)) sect key =
      (blockLive m sect key).or (liveIn (slotted m 0 next) sect key) := by
  rw [liveIn_iniParse, unmarked, sound.pieces_emit laid noGlue, (reads_filter _ []).2,
    liveFrom_emitted sound read]

end

end EdvrPatch.Ini
