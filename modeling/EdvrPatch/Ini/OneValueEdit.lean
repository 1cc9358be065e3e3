import EdvrPatch.Ini.MergeSteps

/-! The merge as an editor: a text merged with itself and one forced value, which
is how a settings window writes a single setting. -/
namespace EdvrPatch.Ini

open Lib

/-! ### A text merged with itself -/

def Edits.Bare (m : Edits) : Prop :=
  m.replacements = [] ∧ m.appended = []

variable {m : Edits}

theorem mergeKey_self {doc : IniDoc} {forced : List (Text × Text)} {sk : Text × Text}
    (known : (effectiveOf doc sk.1 sk.2).known = true) (bare : m.Bare) :
    (Sources.mergeKey ⟨doc, doc, doc, true⟩ forced m sk).Bare := by
  have unchanged : ¬Sources.changedByUser ⟨doc, doc, doc, true⟩ sk.1 sk.2 := by
    simp [Sources.changedByUser]
  unfold Sources.mergeKey
  split
  · exact bare
  · unfold Sources.mergeKnown
    dsimp only
    split
    · exact bare
    · split <;> exact bare

theorem edits_self (doc : IniDoc) (forced : List (Text × Text)) : ∃ m : Edits, m.Bare ∧
    Sources.edits ⟨doc, doc, doc, true⟩ forced =
      forced.foldl (Sources.forceKey ⟨doc, doc, doc, true⟩) m := by
  refine ⟨_, ?_, rfl⟩
  have visits (keys : List (Text × Text)) (m : Edits) (bare : m.Bare)
      (known : ∀ sk ∈ keys, (effectiveOf doc sk.1 sk.2).known = true) :
      (keys.foldl (Sources.mergeKey ⟨doc, doc, doc, true⟩ forced) m).Bare := by
    induction keys generalizing m with
    | nil => exact bare
    | cons sk keys ih =>
      exact ih _ (mergeKey_self (known sk List.mem_cons_self) bare)
        fun other member => known other (List.mem_cons_of_mem _ member)
  apply visits
  · exact ⟨rfl, rfl⟩
  · intro sk member
    obtain ⟨line, inside, setting, rfl⟩ := mem_userKeys member
    have inside : line ∈ doc := inside.elim id id
    exact effectiveOf_known.mpr ⟨line, inside, isSetting_iff.mp setting, rfl, rfl⟩

theorem emitFrom_same {next : IniDoc} {eol : Text} (kept : m.replacements = []) {lines : IniDoc}
    {i : Nat} (after : ∀ j, j < i + lines.length → appendAfter next m j = none) (out : IniDoc) :
    emitFrom next eol m i out lines = out ++ lines := by
  induction lines generalizing i out with
  | nil => simp [emitFrom]
  | cons line lines ih =>
    have step : emitStep next eol m out i line = out ++ [line] := by
      unfold emitStep emitLine
      rw [after i (by simp), kept]
      rfl
    rw [emitFrom, step, ih]
    · simp
    · intro j bound
      exact after j (by simp; omega)

theorem emit_bare (next : IniDoc) (bare : m.Bare) : emit next m = textOf next := by
  have sections : appendedSections m = [] := by
    simp [appendedSections, bare.2]
  unfold emit
  dsimp only
  rw [emitFrom_same bare.1 fun j _ => by simp [appendAfter, sections]]
  simp [orphans, sections]

theorem mergeIni_self (text : Text) : (mergeIni text text (some text) []).1 = dropMark text := by
  obtain ⟨m, bare, edits⟩ := edits_self (iniParse text) []
  have : (mergeIni text text (some text) []).1 = emit (iniParse text) m := by
    unfold mergeIni readSources
    dsimp only [Option.getD_some, Option.isSome_some]
    rw [edits]
    rfl
  rw [this, emit_bare _ bare, textOf_iniParse]

/-! ### Names -/

theorem samePair_iff {name sect key : Text} (undotted : '.' ∉ sect) (named : sect ≠ []) :
    SamePair (splitDotted name).1 (splitDotted name).2 sect key ↔
      lower name = lower (sect ++ '.' :: key) := by
  constructor
  · intro ⟨sameSect, sameKey'⟩
    have ne : (splitDotted name).1 ≠ [] := by
      intro empty
      have := congrArg List.length (show lower (splitDotted name).1 = lower sect from sameSect)
      rw [empty, length_lower, length_lower] at this
      exact named (List.length_eq_zero_iff.mp this.symm)
    rw [splitDotted_join ne, lower_append, lower_append, lower_cons, lower_cons,
      show lower (splitDotted name).1 = lower sect from sameSect,
      show lower (splitDotted name).2 = lower key from sameKey']
  · intro same
    have split_ := congrArg splitDotted same
    rw [splitDotted_lower, splitDotted_lower] at split_
    rw [splitDotted_append undotted] at split_
    exact ⟨(Prod.mk.inj split_).1, (Prod.mk.inj split_).2⟩

/-! ### The edited text -/

/-- A name and a value as the settings window has them: the name is cut at its
first dot, the value is on one line and looks like no comment. -/
structure OneEdit (sect key value : Text) : Prop where
  sectToken : isKeyToken sect = true
  undotted : '.' ∉ sect
  keyToken : isKeyToken key = true
  trimmed : Trimmed value
  valueLine : ∀ c ∈ value, isNewline c = false
  unmarked : ∀ c ∈ value, isMarker c = false

def editIni (text sect key value : Text) : Text :=
  (mergeIni text text (some text) [(sect ++ '.' :: key, value)]).1

def EditLaw (text sect key value : Text) : Prop :=
  ∀ name fallback, iniValue (editIni text sect key value) name fallback =
    if lower name = lower (sect ++ '.' :: key) then value else iniValue text name fallback

/-- The setting is not in the text, and its section ends with the text, on a
line that has something on it and no terminator. -/
def RunsOn (text sect key : Text) : Prop :=
  lastDeclared (iniParse text) sect key = none ∧
    ∃ last, (iniParse text).getLast? = some last ∧ last.eol = [] ∧ last.kind ≠ .blank ∧
      sameKey last.sect sect

theorem isKeyToken_name {sect : Text} (token : isKeyToken sect = true) :
    sect ≠ [] ∧ SectName sect := by
  have line := token_line token
  simp only [isKeyToken, Bool.and_eq_true, bne_iff_ne, ne_eq, List.all_eq_true] at token
  refine ⟨token.1.1, fun member => ?_, line⟩
  cases token.2 ']' member

theorem commentFree_of_unmarked {value : Text} (unmarked : ∀ c ∈ value, isMarker c = false) :
    CommentFree value ∧ ¬MarkerLed value := by
  refine ⟨?_, ?_⟩
  · unfold CommentFree
    induction value with
    | nil => rfl
    | cons a value ih =>
      have later := ih fun c member => unmarked c (List.mem_cons_of_mem _ member)
      cases value with
      | nil => rfl
      | cons b rest =>
        rw [stripInlineComment_cons_of_not, later]
        rw [unmarked b (by simp)]
        exact fun h => nomatch h.2
  · rintro ⟨c, first, marker⟩
    rw [unmarked c (List.mem_of_mem_head? first)] at marker
    cases marker

section

variable {text sect key value : Text}

theorem OneEdit.written (one : OneEdit sect key value) : writtenValue value = value :=
  if_neg (commentFree_of_unmarked one.unmarked).2

theorem OneEdit.appendable (one : OneEdit sect key value) (noEq : '=' ∉ key) :
    Appendable sect key value :=
  ⟨one.keyToken, noEq, (isKeyToken_name one.sectToken).2.1, (isKeyToken_name one.sectToken).2.2,
    one.valueLine⟩

theorem editIni_eq (text sect key value : Text) : ∃ m : Edits, m.Bare ∧
    editIni text sect key value = emit (iniParse text)
      (Sources.forceKey ⟨iniParse text, iniParse text, iniParse text, true⟩ m
        (sect ++ '.' :: key, value)) := by
  obtain ⟨m, bare, edits⟩ := edits_self (iniParse text) [(sect ++ '.' :: key, value)]
  refine ⟨m, bare, ?_⟩
  unfold editIni mergeIni readSources
  dsimp only [Option.getD_some, Option.isSome_some]
  rw [edits]
  rfl

variable {m : Edits}

theorem Edits.Bare.keyed (bare : m.Bare) (next : IniDoc) : m.Keyed next := by
  refine ⟨?_, ?_⟩
  · intro i other found
    rw [bare.1] at found
    cases found
  · intro other texts found
    rw [bare.2] at found
    cases found

theorem Edits.Bare.blockLive (bare : m.Bare) (sect key : Text) : blockLive m sect key = none := by
  unfold Ini.blockLive blockTexts
  rw [bare.2]
  rfl

variable {line : IniLine}

theorem head_unmarked (single : ¬byteOrderMark <+: dropMark text)
    (first : (iniParse text).head? = some line) : ¬byteOrderMark <+: line.text := by
  intro marked
  apply single
  obtain ⟨later, whole⟩ := List.head?_eq_some_iff.mp first
  rw [← textOf_iniParse, whole, textOf, List.flatMap_cons, List.append_assoc]
  exact marked.trans (List.prefix_append ..)

theorem head_sect (first : (iniParse text).head? = some line) (setting : isSetting line = true) :
    line.sect = [] := by
  obtain ⟨later, whole⟩ := List.head?_eq_some_iff.mp first
  have read := iniParse_readFrom text
  rw [whole] at read
  have kind : (readLine [] line.text line.eol).kind ≠ .sect := by
    rw [← read.1]
    rcases isSetting_iff.mp setting with kind | kind <;> simp [kind]
  rw [read.1]
  exact (noHeader_of_kind kind).2

theorem not_sameKey_nil (named : sect ≠ []) : ¬sameKey [] sect := by
  intro same
  have := congrArg List.length (show lower [] = lower sect from same)
  rw [length_lower, length_lower] at this
  exact named (List.length_eq_zero_iff.mp this.symm)

theorem OneEdit.law (one : OneEdit sect key value)
    (live : ∀ sect' key', liveIn (iniParse (editIni text sect key value)) sect' key' =
      if SamePair sect' key' sect key then some value else liveIn (iniParse text) sect' key') :
    EditLaw text sect key value := by
  intro name fallback
  rw [iniValue_eq, iniValue_eq, live]
  by_cases same : SamePair (splitDotted name).1 (splitDotted name).2 sect key
  · rw [if_pos same,
      if_pos ((samePair_iff one.undotted (isKeyToken_name one.sectToken).1).mp same)]
    rfl
  · rw [if_neg same, if_neg fun h =>
      same ((samePair_iff one.undotted (isKeyToken_name one.sectToken).1).mpr h)]

theorem OneEdit.not_law (one : OneEdit sect key value)
    (dead : liveIn (iniParse (editIni text sect key value)) sect key = none) :
    ¬EditLaw text sect key value := by
  intro law
  have read (fallback : Text) : fallback = value := by
    have := law (sect ++ '.' :: key) fallback
    rw [if_pos rfl, iniValue_eq, splitDotted_append one.undotted, dead] at this
    exact this
  have := (read ['0']).trans (read ['1']).symm
  simp at this

/-- What an edit says that leaves no line unterminated and starts with no byte
order mark: the new value at its setting, and nothing else changed. -/
theorem live_edit {m' : Edits} (bare : m.Bare) (edit : EditFor (iniParse text) sect key m m')
    (noGlue : NoGlue (iniParse text) m') (unmarked : ¬byteOrderMark <+: emit (iniParse text) m')
    (own : (blockLive m' sect key).or (liveIn (slotted m' 0 (iniParse text)) sect key) = some value)
    (sect' key' : Text) :
    liveIn (iniParse (emit (iniParse text) m')) sect' key' =
      if SamePair sect' key' sect key then some value else liveIn (iniParse text) sect' key' := by
  have read := iniParse_readFrom text
  have laid := iniParse_laidOut text
  have keyed := bare.keyed (iniParse text)
  have keyed' := edit.keyed read laid keyed
  by_cases same : SamePair sect' key' sect key
  · rw [if_pos same, liveIn_congr same,
      (keyed'.sound read).live_emit read laid noGlue (dropMark_eq unmarked), own]
  · have untouched := edit.untouched keyed fun h : SamePair sect key sect' key' =>
      same ⟨h.1.symm, h.2.symm⟩
    rw [if_neg same, (keyed'.sound read).live_emit read laid noGlue (dropMark_eq unmarked),
      untouched.block, bare.blockLive, Option.none_or]
    apply liveIn_slotted_same (keyed'.quiet sect' key')
    intro i line here declares
    rw [untouched.lines i line here declares, bare.1]
    rfl

theorem unmarked_edit {m' : Edits} (named : sect ≠ []) (bare : m.Bare)
    (edit : EditFor (iniParse text) sect key m m') (noGlue : NoGlue (iniParse text) m')
    (single : ¬byteOrderMark <+: dropMark text) : ¬byteOrderMark <+: emit (iniParse text) m' := by
  have read := iniParse_readFrom text
  have laid := iniParse_laidOut text
  have keyed := bare.keyed (iniParse text)
  have keyed' := edit.keyed read laid keyed
  intro marked
  rcases (keyed'.sound read).mark_emit read laid noGlue marked with
    ⟨line, first, led⟩ | ⟨-, other, front, -⟩
  · have unreplaced : m'.replacements.get 0 = none := by
      by_contra some_
      obtain ⟨replaced, found⟩ := Option.ne_none_iff_exists'.mp some_
      obtain ⟨line', here, setting, -⟩ := keyed'.replaced 0 replaced found
      rw [← List.head?_eq_getElem?, first] at here
      cases here
      -- a setting on the first line stands in no section, so it is not the edited one
      have apart : ¬SamePair sect key line.sect line.key := by
        rw [head_sect first setting]
        exact fun h => not_sameKey_nil named h.1.symm
      have untouched := (edit.untouched keyed apart).lines 0 line
        (by rw [← List.head?_eq_getElem?, first]) ⟨isSetting_iff.mp setting, rfl, rfl⟩
      rw [found, bare.1] at untouched
      cases untouched
    rw [unreplaced] at led
    exact head_unmarked single first led
  · have ne : [] ≠ lower sect := by
      intro empty
      exact not_sameKey_nil named (show lower [] = lower sect from empty)
    unfold blockTexts at front
    rw [edit.appended_other ne, bare.2] at front
    cases front

/-! ### A line that runs on -/

variable {at_ : Text}

theorem liveFrom_texts {doc : IniDoc} (read : ReadFrom at_ doc) (sect key : Text) :
    liveFrom at_ (doc.map (·.text)) sect key = liveIn doc sect key := by
  induction doc generalizing at_ with
  | nil => rfl
  | cons line doc ih =>
    have here : (readLine at_ line.text []).sect = line.sect ∧
        (readLine at_ line.text []).liveAt sect key = line.liveAt sect key := by
      have parsed := read.1
      rw [readLine_eol] at parsed
      exact ⟨(congrArg (·.sect) parsed).symm, (congrArg (·.liveAt sect key) parsed).symm⟩
    rw [List.map_cons, liveFrom_cons, here.1, here.2, liveIn, ih read.2]

theorem runOn_dead {line key : Text} (token : isKeyToken key = true) (noEq : '=' ∉ key)
    (solid : trim line ≠ [])
    (undeclared : (readLine at_ line []).kind = .key → ¬sameKey (readLine at_ line []).key key)
    (value sect : Text) :
    (readLine at_ (line ++ assignText key value) []).liveAt sect key = none := by
  by_contra live
  obtain ⟨kind, same⟩ : (readLine at_ (line ++ assignText key value) []).kind = .key ∧
      sameKey (readLine at_ (line ++ assignText key value) []).key key := by
    unfold IniLine.liveAt at live
    split at live
    · rename_i here
      exact ⟨here.1, here.2.2.2⟩
    · exact absurd rfl live
  have some_ : line.dropWhile isBlank ≠ [] := fun none =>
    solid (trim_eq_nil_iff.mpr (List.dropWhile_eq_nil_iff.mp none))
  have front : (line ++ assignText key value).dropWhile isBlank =
      line.dropWhile isBlank ++ assignText key value := by
    rw [List.dropWhile_append, if_neg (by simpa using some_)]
  obtain ⟨token', noEq', pad, rest, form, blank, -⟩ := bareLine_form (isSetting_iff.mpr (.inl kind))
  have bare : bareLine (line ++ assignText key value)
      (decide ((readLine at_ (line ++ assignText key value) []).kind = .commentedKey)) =
        line.dropWhile isBlank ++ assignText key value := by
    rw [kind]
    simp [bareLine, splitIndent, front, some_]
  rw [bare] at form
  generalize (readLine at_ (line ++ assignText key value) []).key = key' at *
  obtain ⟨c, more, starts⟩ := List.exists_cons_of_ne_nil some_
  have first : isBlank c = false := by
    have := List.head_dropWhile_not isBlank some_
    simpa [starts] using this
  have before : ∀ c ∈ key' ++ pad, (c != '=') = true := by
    intro c member
    rcases List.mem_append.mp member with member | member
    · have : c ≠ '=' := fun eq => noEq' (eq ▸ member)
      simpa using this
    · have : c ≠ '=' := by
        rintro rfl
        cases blank _ member
      simpa using this
  have name := congrArg (List.takeWhile (· != '=')) form
  rw [List.takeWhile_append_of_pos before] at name
  simp only [List.takeWhile_cons, bne_self_eq_false, Bool.false_eq_true, if_false,
    List.append_nil] at name
  by_cases eq : '=' ∈ line.dropWhile isBlank
  · -- the line already was an assignment to that key
    rw [takeWhile_append_of_mem eq] at name
    obtain ⟨rest', after⟩ : ∃ rest', (line.dropWhile isBlank).dropWhile (· != '=') = '=' :: rest' := by
      have ne : (line.dropWhile isBlank).dropWhile (· != '=') ≠ [] := by
        intro none
        have := List.dropWhile_eq_nil_iff.mp none '=' eq
        simp at this
      obtain ⟨d, rest', starts⟩ := List.exists_cons_of_ne_nil ne
      have := List.head_dropWhile_not (· != '=') ne
      simp only [starts, List.head_cons, bne_eq_false_iff_eq] at this
      exact ⟨rest', by rw [starts, this]⟩
    have whole : line = line.takeWhile isBlank ++ (key' ++ pad ++ '=' :: rest') := by
      conv_lhs => rw [← List.takeWhile_append_dropWhile (p := isBlank) (l := line),
        ← List.takeWhile_append_dropWhile (p := (· != '=')) (l := line.dropWhile isBlank), name, after]
    have reads := readLine_assign rest'
      (fun c member => List.mem_takeWhile_imp (p := isBlank) (l := line) member) token' noEq' blank
      at_ []
    rw [← whole] at reads
    rw [reads] at undeclared
    exact undeclared rfl same
  · -- the key would be the line and the key together
    have key_eq : (line.dropWhile isBlank ++ assignText key value).takeWhile (· != '=') =
        line.dropWhile isBlank ++ key ++ [' '] := by
      have free : ∀ c ∈ line.dropWhile isBlank ++ key ++ [' '], (c != '=') = true := by
        intro c member
        have : c ≠ '=' := by
          rintro rfl
          rcases List.mem_append.mp member with member | member
          · rcases List.mem_append.mp member with member | member
            · exact eq member
            · exact noEq member
          · cases List.mem_singleton.mp member
        simpa using this
      have cut : line.dropWhile isBlank ++ assignText key value =
          line.dropWhile isBlank ++ key ++ [' '] ++ '=' :: ' ' :: value := by
        simp [assignText]
      rw [cut, List.takeWhile_append_of_pos free]
      simp
    obtain ⟨d, tail, key_cons, -, -, solidKey⟩ := isKeyToken_spec token
    obtain ⟨-, -, -, -, -, solidKey'⟩ := isKeyToken_spec token'
    have joined : line.dropWhile isBlank ++ key = key' := by
      have left : trim (line.dropWhile isBlank ++ key ++ [' ']) = line.dropWhile isBlank ++ key := by
        rw [trim_append_blanks (by decide)]
        apply Trimmed.trim_eq
        refine ⟨?_, ?_⟩
        · rw [starts]
          rintro _ ⟨⟩
          exact first
        · intro e last
          rw [List.getLast?_append_of_ne_nil _ (by simp [key_cons])] at last
          exact solidKey e (List.mem_of_mem_getLast? last)
      have right : trim (key' ++ pad) = key' := by
        rw [trim_append_blanks blank]
        exact Trimmed.trim_eq ⟨fun c inside => solidKey' c (List.mem_of_mem_head? inside),
          fun c inside => solidKey' c (List.mem_of_mem_getLast? inside)⟩
      rw [← left, ← key_eq, name, right]
    have lengths := congrArg List.length (show lower key' = lower key from same)
    rw [length_lower, length_lower, ← joined, List.length_append, starts] at lengths
    simp at lengths

theorem emit_runOn (bare : m.Bare) {init : IniDoc} {last : IniLine}
    (whole : iniParse text = init ++ [last]) (unended : last.eol = [])
    (solid : last.kind ≠ .blank) (same : sameKey last.sect sect) (line : Text) :
    emit (iniParse text) (m.append sect line) =
      textOf init ++ (last.text ++ line ++ dominantEol (iniParse text)) := by
  have sections : appendedSections (m.append sect line) = [lower sect] := by
    unfold appendedSections Edits.append
    rw [bare.2]
    rfl
  have kept : (m.append sect line).replacements = [] := bare.1
  have lastLine : lastLineOfSection (iniParse text) (lower sect) = some init.length := by
    rw [whole]
    apply lastIndex_concat
    simpa using (show sameKey last.sect (lower sect) from Eq.trans same (lower_lower sect).symm)
  have front (eol : Text) : emitFrom (iniParse text) eol (m.append sect line) 0 [] init = init := by
    rw [emitFrom_same kept, List.nil_append]
    intro j bound
    have : init.length ≠ j := by omega
    simp [appendAfter, sections, lastLine, this]
  have block (eol : Text) : blockOf eol (m.append sect line) (lower sect) =
      [{ kind := .comment, text := line, eol := eol }] := by
    unfold blockOf Edits.append
    rw [bare.2]
    simp
  unfold emit
  dsimp only
  generalize dominantEol (iniParse text) = eol
  have split_ := emitFrom_append (iniParse text) eol (m.append sect line) 0 [] init [last]
  rw [← whole, front, Nat.zero_add] at split_
  have step : emitStep (iniParse text) eol (m.append sect line) init init.length last =
      init ++ [last] ++ [{ kind := .comment, text := line, eol := eol }] := by
    unfold emitStep emitLine insertBlock
    rw [kept, show appendAfter (iniParse text) (m.append sect line) init.length = some (lower sect) by
      simp [appendAfter, sections, lastLine]]
    dsimp only [Store.get_nil]
    rw [block, List.rdropWhile_concat_neg _ _ _ (by simpa using solid),
      List.rtakeWhile_concat_neg _ _ _ (by simpa using solid), List.append_nil]
  rw [split_, emitFrom, emitFrom, step]
  simp [textOf, orphans, sections, lastLine, unended]

theorem trim_ne_nil_of_kind {doc : IniDoc} (read : ReadFrom at_ doc) (member : line ∈ doc)
    (solid : line.kind ≠ .blank) : trim line.text ≠ [] := by
  intro none
  obtain ⟨at_, parsed⟩ := read.mem member
  rw [readLine_blank (trim_eq_nil_iff.mp none)] at parsed
  rw [parsed] at solid
  exact solid rfl

theorem OneEdit.runOn (one : OneEdit sect key value) (noEq : '=' ∉ key) (runsOn : RunsOn text sect key)
    (single : ¬byteOrderMark <+: dropMark text) :
    liveIn (iniParse (editIni text sect key value)) sect key = none := by
  obtain ⟨undeclared, last, ends, unended, solid, same⟩ := runsOn
  obtain ⟨init, whole⟩ := List.getLast?_eq_some_iff.mp ends
  obtain ⟨m, bare, edit⟩ := editIni_eq text sect key value
  have forced : Sources.forceKey ⟨iniParse text, iniParse text, iniParse text, true⟩ m
      (sect ++ '.' :: key, value) =
        { m.append sect (assignText key value) with
          report := { m.report with
            forced := m.report.forced ++ [assignText (sect ++ '.' :: key) value] } } := by
    unfold Sources.forceKey
    dsimp only
    rw [splitDotted_append one.undotted, undeclared]
    rfl
  have absent (line : IniLine) (member : line ∈ iniParse text) : ¬line.declares sect key := by
    have := lastIndex_eq_none.mp undeclared line member
    simpa using this
  have written : editIni text sect key value = textOf init ++
      (last.text ++ assignText key value ++ dominantEol (iniParse text)) := by
    rw [edit, forced, ← emit_runOn bare whole unended solid same]
    exact emit_report ..
  have read := iniParse_readFrom text
  have laid := iniParse_laidOut text
  rw [whole] at read laid
  have member : last ∈ iniParse text := by simp [whole]
  obtain ⟨laidInit, ⟨free, -, -, -⟩, ended⟩ := laid.of_append
  have terminated : Terminated init := fun line member =>
    ⟨ended (by simp) line member, (laidInit.mem member).2, (laidInit.mem member).1⟩
  obtain ⟨ne, newlines⟩ := dominantEol_newlines (iniParse_laidOut text)
  have solidText := trim_ne_nil_of_kind (iniParse_readFrom text) member solid
  have freeLine : ∀ c ∈ last.text ++ assignText key value, isNewline c = false := by
    intro c inside
    rcases List.mem_append.mp inside with inside | inside
    · exact free c inside
    · exact (one.appendable noEq).line.1 c inside
  have unmarked : ¬byteOrderMark <+: editIni text sect key value := by
    intro marked
    cases init with
    | cons first init =>
      have : ¬byteOrderMark <+: first.text := head_unmarked single (by rw [whole]; rfl)
      obtain ⟨ne, newlines, -⟩ := terminated first List.mem_cons_self
      apply this
      rw [written, textOf, List.flatMap_cons, List.append_assoc, List.append_assoc] at marked
      refine @prefix_of_stop isNewline _ _ _ (by decide) ?_ marked
      obtain ⟨c, more, eol_eq⟩ := List.exists_cons_of_ne_nil ne
      rw [eol_eq] at newlines ⊢
      rintro _ ⟨⟩
      exact newlines c List.mem_cons_self
    | nil =>
      -- the only line opens the section, so it starts with a bracket or a blank
      have here : last = readLine [] last.text last.eol := read.1
      have opens : last.kind = .sect := by
        by_contra other
        have : last.sect = [] := by
          rw [here] at other ⊢
          exact (noHeader_of_kind other).2
        rw [this] at same
        exact not_sameKey_nil (isKeyToken_name one.sectToken).1 same
      obtain ⟨c, more, text_cons⟩ := List.exists_cons_of_ne_nil (show last.text ≠ [] by
        intro none
        rw [none] at solidText
        exact solidText rfl)
      rw [written, text_cons] at marked
      obtain rfl : Char.ofNat 0xEF = c := (List.cons_prefix_cons.mp marked).1
      obtain ⟨rest, body⟩ := @trim_cons_of_not_blank (Char.ofNat 0xEF) (by decide) more
      rw [← text_cons] at body
      rw [here, readLine_plain body (by decide) (by decide)] at opens
      split at opens <;> cases opens
  rw [liveIn_iniParse, dropMark_eq unmarked, written, terminated.pieces,
    ← List.append_nil (dominantEol (iniParse text)), pieces_append_append newlines ne, pieces_nil,
    List.append_nil, pieces_eq_singleton freeLine (by simp [assignText])]
  rw [liveFrom_append, (reads_filter _ []).2, liveFrom_texts read.of_append.1, liveFrom_cons, liveFrom,
    Option.none_or]
  have dead : liveIn init sect key = none := by
    by_contra some_
    obtain ⟨found, live⟩ := Option.ne_none_iff_exists'.mp some_
    obtain ⟨line, inside, -, declares, -⟩ := liveIn_some live
    exact absent line (by simp [whole, inside]) declares
  rw [dead, Option.or_none]
  apply runOn_dead one.keyToken noEq solidText
  intro kind sameKey'
  apply absent last member
  -- what a line that opens no section says does not depend on where it stands
  obtain ⟨at_, parsed⟩ := (iniParse_readFrom text).mem member
  have plain := (noHeader_of_kind (by rw [kind]; simp)).1
  rw [plain] at kind sameKey'
  rw [readLine_eol, plain] at parsed
  exact ⟨.inl ((congrArg (·.kind) parsed).trans kind), same,
    Eq.trans (congrArg (lower ·.key) parsed) sameKey'⟩

theorem liveIn_eq_none_of_eq (text sect : Text) {key : Text} (eq : '=' ∈ key) :
    liveIn (iniParse text) sect key = none := by
  by_contra some_
  obtain ⟨value, live⟩ := Option.ne_none_iff_exists'.mp some_
  obtain ⟨line, member, -, declares, -⟩ := liveIn_some live
  apply (settingLine_of_mem member declares.setting).noEq
  apply mem_of_mem_lower (by decide)
  rw [show lower line.key = lower key from declares.2.2]
  exact List.mem_map.mpr ⟨'=', eq, rfl⟩

theorem OneEdit.live (one : OneEdit sect key value) (noEq : '=' ∉ key)
    (ends : ¬RunsOn text sect key) (single : ¬byteOrderMark <+: dropMark text) (sect' key' : Text) :
    liveIn (iniParse (editIni text sect key value)) sect' key' =
      if SamePair sect' key' sect key then some value else liveIn (iniParse text) sect' key' := by
  have read := iniParse_readFrom text
  have laid := iniParse_laidOut text
  obtain ⟨named, -⟩ := isKeyToken_name one.sectToken
  obtain ⟨free, -⟩ := commentFree_of_unmarked one.unmarked
  obtain ⟨m, bare, edited⟩ := editIni_eq text sect key value
  have keyed := bare.keyed (iniParse text)
  have edit := @Sources.forceKey_edit ⟨iniParse text, iniParse text, iniParse text, true⟩ m
    (sect ++ '.' :: key, value) one.valueLine fun _ => by
      rw [splitDotted_append one.undotted]
      exact one.appendable noEq
  rw [edited]
  unfold Sources.forceKey at edit ⊢
  dsimp only at edit ⊢
  rw [splitDotted_append one.undotted] at edit ⊢
  dsimp only at edit ⊢
  cases last : lastDeclared (iniParse text) sect key with
  | some i =>
    rw [last] at edit
    dsimp only at edit ⊢
    obtain ⟨line, here, declares⟩ := lastDeclared_spec last
    obtain ⟨found, reads, value_eq⟩ := rewritten_reads read here declares.setting value
    have noGlue : NoGlue (iniParse text) (m.replace i (rewritten (iniParse text) i value)) := by
      intro line _ _ _ _
      change m.appended.get _ = none
      rw [bare.2]
      rfl
    refine live_edit bare edit noGlue (unmarked_edit named bare edit noGlue single) ?_ sect' key'
    have keyed' := edit.keyed read laid keyed
    change (blockLive m sect key).or _ = _
    rw [bare.blockLive, Option.none_or]
    apply liveIn_slotted_last (keyed'.quiet sect key) last (Store.get_set_self ..)
    intro line' here'
    cases here.symm.trans here'
    rw [reads, value_eq one.trimmed free, one.written]
    exact IniLine.liveAt_of_setting rfl declares.2
  | none =>
    rw [last] at edit
    have noGlue : NoGlue (iniParse text) (m.append sect (assignText key value)) := by
      intro line isLast bareLine solid _
      change (m.appended.set _ _).get _ = none
      rw [Store.get_set_of_ne, bare.2]
      · rfl
      · exact fun same => ends ⟨last, line, isLast, bareLine, solid, same⟩
    refine live_edit bare edit noGlue (unmarked_edit named bare edit noGlue single) ?_ sect' key'
    obtain ⟨found, reads, value_eq⟩ := assignText_reads one.keyToken noEq value
    change (blockLive (m.append sect (assignText key value)) sect key).or _ = _
    rw [blockLive_append keyed, if_pos (show sameKey sect sect from rfl), reads,
      value_eq one.trimmed free, one.written, IniLine.liveAt_of_setting rfl ⟨rfl, rfl⟩]
    rfl

end

/-- Setting one value in a file with at most one byte order mark updates it at its
name and nowhere else, exactly when the key holds no equals sign and the file does
not run on into it. With nothing to set every file stays as it is. -/
theorem editIni_law_iff (text sect key value : Text) (one : OneEdit sect key value) :
    (¬byteOrderMark <+: dropMark text →
      (EditLaw text sect key value ↔ '=' ∉ key ∧ ¬RunsOn text sect key)) ∧
      (mergeIni text text (some text) []).1 = dropMark text := by
  refine ⟨fun single => ⟨fun law => ?_, fun ⟨noEq, ends⟩ => ?_⟩, mergeIni_self text⟩
  · have noEq : '=' ∉ key := fun eq =>
      one.not_law (liveIn_eq_none_of_eq (editIni text sect key value) sect eq) law
    exact ⟨noEq, fun runsOn => one.not_law (one.runOn noEq runsOn single) law⟩
  · exact one.law (one.live noEq ends single)

theorem oneEdit_example : OneEdit "a".toList "z".toList "2".toList where
  sectToken := by decide
  undotted := by decide
  keyToken := by decide
  trimmed := ⟨by decide, by decide⟩
  valueLine := by decide
  unmarked := by decide

theorem editIni_law_terminated :
    EditLaw "[a]\nk = 1\n".toList "a".toList "z".toList "2".toList := by
  refine ((editIni_law_iff _ _ _ _ oneEdit_example).1 (by decide)).mpr ⟨by decide, ?_⟩
  rintro ⟨-, last, ends, unended, -⟩
  have : (iniParse "[a]\nk = 1\n".toList).getLast?.map (·.eol) = some ['\n'] := by decide +kernel
  rw [ends] at this
  simp [unended] at this

/-- A file that ends without a line break runs on into the new setting. -/
theorem editIni_runs_on :
    OneEdit "a".toList "z".toList "2".toList ∧
      editIni "[a]\nk = 1".toList "a".toList "z".toList "2".toList = "[a]\nk = 1z = 2\n".toList ∧
      ¬EditLaw "[a]\nk = 1".toList "a".toList "z".toList "2".toList := by
  refine ⟨oneEdit_example, by decide +kernel, fun law => ?_⟩
  have unset := law "a.z".toList []
  revert unset
  decide +kernel

end EdvrPatch.Ini
