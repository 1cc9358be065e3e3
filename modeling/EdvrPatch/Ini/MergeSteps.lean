import EdvrPatch.Ini.EditSteps

/-! The loops of the merge: which settings of the user's file are visited, and
what each visit does. -/
namespace EdvrPatch.Ini

open Lib

/-! ### Sections and values of parsed texts -/

def SectName (sect : Text) : Prop :=
  ']' ∉ sect ∧ ∀ c ∈ sect, isNewline c = false

variable {doc : IniDoc}

theorem ReadFrom.sectName {at_ : Text} (read : ReadFrom at_ doc) (laid : LaidOut doc)
    (named : SectName at_) : ∀ line ∈ doc, SectName line.sect := by
  induction doc generalizing at_ with
  | nil => exact nofun
  | cons first doc ih =>
    have here : SectName first.sect := by
      have free := laid.1
      rw [read.1]
      cases body : trim first.text with
      | nil =>
        rw [readLine_blank (trim_eq_nil_iff.mp body)]
        exact named
      | cons c rest =>
        by_cases header : c = '['
        · subst header
          by_cases close : ']' ∈ rest
          · rw [readLine_header body close]
            refine ⟨fun member => ?_, fun d member => free d (mem_of_mem_trim ?_)⟩
            · have := List.mem_takeWhile_imp member
              simp at this
            · rw [body]
              exact List.mem_cons_of_mem _ ((List.takeWhile_prefix _).subset member)
          · rw [readLine_unclosed body close]
            exact named
        · cases marker : isMarker c with
          | true =>
            rw [readLine_marker body marker]
            split <;> exact named
          | false =>
            rw [readLine_plain body header marker]
            split <;> exact named
    intro line member
    rcases List.mem_cons.mp member with rfl | member
    · exact here
    · exact ih read.2 laid.2.2.2 here line member

theorem sectName_of_mem {text : Text} {line : IniLine} (member : line ∈ iniParse text) :
    SectName line.sect :=
  (iniParse_readFrom text).sectName (iniParse_laidOut text) ⟨nofun, nofun⟩ line member

variable {sect key value : Text}

theorem liveIn_some (live : liveIn doc sect key = some value) :
    ∃ line ∈ doc, line.kind = .key ∧ line.declares sect key ∧ line.value = value := by
  induction doc with
  | nil => cases live
  | cons line doc ih =>
    rw [liveIn] at live
    cases later : liveIn doc sect key with
    | some other =>
      rw [later, Option.some_or] at live
      obtain ⟨line', member, rest⟩ := ih (later.trans live)
      exact ⟨line', List.mem_cons_of_mem _ member, rest⟩
    | none =>
      rw [later, Option.none_or] at live
      unfold IniLine.liveAt at live
      split at live
      · rename_i here
        exact ⟨line, List.mem_cons_self, here.1, here.2, Option.some.inj live⟩
      · cases live

theorem liveIn_value {text : Text} (live : liveIn (iniParse text) sect key = some value) :
    Trimmed value ∧ CommentFree value ∧ ∀ c ∈ value, isNewline c = false := by
  obtain ⟨line, member, -, declares, rfl⟩ := liveIn_some live
  have setting := settingLine_of_mem member declares.setting
  exact ⟨setting.trimmed, setting.free, setting.valueLine⟩

variable {sect' key' : Text}

theorem liveIn_congr (same : SamePair sect key sect' key') :
    liveIn doc sect key = liveIn doc sect' key' := by
  induction doc with
  | nil => rfl
  | cons line doc ih =>
    rw [liveIn, liveIn, ih]
    congr 1
    unfold IniLine.liveAt
    simp only [IniLine.declares_congr same]

theorem effectiveOf_congr (same : SamePair sect key sect' key') :
    effectiveOf doc sect key = effectiveOf doc sect' key' := by
  rw [effectiveOf_eq, effectiveOf_eq, liveIn_congr same]
  simp only [IniLine.declares_congr same]

theorem effectiveOf_live :
    liveIn doc sect key = some value ↔
      (effectiveOf doc sect key).present = true ∧ (effectiveOf doc sect key).value = value := by
  rw [effectiveOf_present, effectiveOf_value]
  cases liveIn doc sect key <;> simp

/-! ### The visited settings -/

def keyId (sk : Text × Text) : Text :=
  lower (dottedName sk.1 sk.2)

/-- The ids are those of the settings, and no two settings share one. -/
structure KeyList.Sound (list : KeyList) : Prop where
  seen : ∀ id, id ∈ list.seen ↔ ∃ sk ∈ list.keys, keyId sk = id
  distinct : (list.keys.map keyId).Nodup

variable {list : KeyList}

theorem KeyList.Sound.add (sound : list.Sound) (line : IniLine) : (list.add line).Sound := by
  unfold KeyList.add
  dsimp only
  split
  · exact sound
  · rename_i fresh
    refine ⟨fun id => ?_, ?_⟩
    · rw [List.mem_cons, sound.seen]
      constructor
      · rintro (rfl | ⟨sk, member, same⟩)
        · exact ⟨(line.sect, line.key), by simp, rfl⟩
        · exact ⟨sk, by simp [member], same⟩
      · rintro ⟨sk, member, same⟩
        rcases List.mem_append.mp member with member | member
        · exact .inr ⟨sk, member, same⟩
        · rw [List.mem_singleton.mp member] at same
          exact .inl same.symm
    · rw [List.map_append, List.nodup_append']
      refine ⟨sound.distinct, by simp, ?_⟩
      intro id old new
      obtain ⟨sk, member, rfl⟩ := List.mem_map.mp old
      simp only [List.map_cons, List.map_nil, List.mem_singleton] at new
      exact fresh ((sound.seen _).mpr ⟨sk, member, new⟩)

theorem KeyList.Sound.foldl (sound : list.Sound) (lines : IniDoc) :
    (lines.foldl KeyList.add list).Sound := by
  induction lines generalizing list with
  | nil => exact sound
  | cons line _ ih => exact ih (sound.add line)

theorem KeyList.sound_nil : KeyList.Sound {} :=
  ⟨fun id => by simp, by simp⟩

theorem KeyList.Sound.find_foldl (sound : list.Sound) (lines : IniDoc) (id : Text) :
    (lines.foldl KeyList.add list).keys.find? (fun sk => keyId sk = id) =
      (list.keys.find? fun sk => keyId sk = id).or
        ((lines.find? fun line => keyId (line.sect, line.key) = id).map
          fun line => (line.sect, line.key)) := by
  induction lines generalizing list with
  | nil => simp
  | cons line lines ih =>
    rw [List.foldl_cons, ih (sound.add line)]
    unfold KeyList.add
    dsimp only
    by_cases here : keyId (line.sect, line.key) = id
    · rw [List.find?_cons_of_pos (by simpa using here)]
      split
      · rename_i member
        obtain ⟨sk, inside, same⟩ := (sound.seen _).mp member
        have : (list.keys.find? fun sk => keyId sk = id).isSome = true := by
          rw [List.find?_isSome]
          exact ⟨sk, inside, by simpa using same.trans here⟩
        obtain ⟨found, found_eq⟩ := Option.isSome_iff_exists.mp this
        rw [found_eq]
        rfl
      · rw [List.find?_append, Option.or_assoc]
        congr 1
        simp [here]
    · rw [List.find?_cons_of_neg (by simpa using here)]
      split
      · rfl
      · rw [List.find?_append]
        simp [here]

theorem KeyList.mem_foldl {lines : IniDoc} {sk : Text × Text}
    (member : sk ∈ (lines.foldl KeyList.add list).keys) :
    sk ∈ list.keys ∨ ∃ line ∈ lines, sk = (line.sect, line.key) := by
  induction lines generalizing list with
  | nil => exact .inl member
  | cons line lines ih =>
    rcases ih member with old | ⟨line', inside, same⟩
    · unfold KeyList.add at old
      dsimp only at old
      split at old
      · exact .inl old
      · rcases List.mem_append.mp old with old | new
        · exact .inl old
        · exact .inr ⟨line, List.mem_cons_self, List.mem_singleton.mp new⟩
    · exact .inr ⟨line', List.mem_cons_of_mem _ inside, same⟩

section

variable (userDoc baseDoc : IniDoc) (haveBase : Bool)

theorem userKeys_sound : ∃ list : KeyList, list.Sound ∧ userKeys userDoc baseDoc haveBase = list.keys := by
  have own := KeyList.sound_nil.foldl (userDoc.filter isSetting)
  unfold userKeys
  split
  · exact ⟨_, own.foldl _, rfl⟩
  · exact ⟨_, own, rfl⟩

variable {userDoc baseDoc haveBase}

theorem mem_userKeys {sk : Text × Text} (member : sk ∈ userKeys userDoc baseDoc haveBase) :
    ∃ line, (line ∈ userDoc ∨ line ∈ baseDoc) ∧ isSetting line = true ∧
      sk = (line.sect, line.key) := by
  have own (inside : sk ∈ ((userDoc.filter isSetting).foldl KeyList.add {}).keys) :
      ∃ line, (line ∈ userDoc ∨ line ∈ baseDoc) ∧ isSetting line = true ∧
        sk = (line.sect, line.key) := by
    obtain ⟨line, member, same⟩ := (KeyList.mem_foldl inside).resolve_left nofun
    obtain ⟨member, setting⟩ := List.mem_filter.mp member
    exact ⟨line, .inl member, setting, same⟩
  unfold userKeys at member
  dsimp only at member
  split at member
  · rcases KeyList.mem_foldl member with inside | ⟨line, inside, same⟩
    · exact own inside
    · obtain ⟨inside, kind⟩ := List.mem_filter.mp inside
      have kind : line.kind = .key := by simpa using kind
      exact ⟨line, .inr inside, isSetting_iff.mpr (.inl kind), same⟩
  · exact own member

def firstWithId (doc : IniDoc) (id : Text) : Option IniLine :=
  (doc.filter isSetting).find? fun line => keyId (line.sect, line.key) = id

theorem userKeys_find {id : Text} {line : IniLine} (first : firstWithId userDoc id = some line) :
    (userKeys userDoc baseDoc haveBase).find? (fun sk => keyId sk = id) =
      some (line.sect, line.key) := by
  have own : ((userDoc.filter isSetting).foldl KeyList.add {}).keys.find?
      (fun sk => keyId sk = id) = some (line.sect, line.key) := by
    rw [KeyList.sound_nil.find_foldl]
    unfold firstWithId at first
    rw [first]
    rfl
  unfold userKeys
  dsimp only
  split
  · rw [(KeyList.sound_nil.foldl _).find_foldl, own]
    rfl
  · exact own

theorem userKeys_split {id : Text} {line : IniLine} (first : firstWithId userDoc id = some line) :
    ∃ front back, userKeys userDoc baseDoc haveBase = front ++ (line.sect, line.key) :: back ∧
      keyId (line.sect, line.key) = id ∧ ∀ sk ∈ front ++ back, keyId sk ≠ id := by
  obtain ⟨list, sound, keys⟩ := userKeys_sound userDoc baseDoc haveBase
  obtain ⟨here, front, back, whole, before⟩ := List.find?_eq_some_iff_append.mp
    (@userKeys_find userDoc baseDoc haveBase id line first)
  have here : keyId (line.sect, line.key) = id := by simpa using here
  refine ⟨front, back, whole, here, ?_⟩
  have distinct := sound.distinct
  rw [← keys, whole, List.map_append, List.map_cons] at distinct
  intro sk member same
  rcases List.mem_append.mp member with member | member
  · simpa [same] using before sk member
  · have := (List.nodup_cons.mp (List.nodup_append'.mp distinct).2.1).1
    exact this (List.mem_map.mpr ⟨sk, member, same.trans here.symm⟩)

end

theorem keyId_congr (same : SamePair sect key sect' key') :
    keyId (sect, key) = keyId (sect', key') := by
  have lengths : sect = [] ↔ sect' = [] := by
    have := congrArg List.length (show lower sect = lower sect' from same.1)
    rw [length_lower, length_lower] at this
    rw [← List.length_eq_zero_iff, ← List.length_eq_zero_iff, this]
  unfold keyId dottedName
  by_cases empty : sect = []
  · rw [if_pos empty, if_pos (lengths.mp empty)]
    exact same.2
  · rw [if_neg empty, if_neg fun h => empty (lengths.mpr h), lower_append, lower_append, lower_cons,
      lower_cons, show lower sect = lower sect' from same.1, show lower key = lower key' from same.2]

/-! ### One visit -/

namespace Sources

variable {docs : Sources} {forced : List (Text × Text)} {m : Edits} {sect key : Text}

def Writable (docs : Sources) : Prop :=
  ∀ sect key value, liveIn docs.user sect key = some value →
    Trimmed value ∧ CommentFree value ∧ ∀ c ∈ value, isNewline c = false

theorem writable_readSources (next user : Text) (base : Option Text) :
    (readSources next user base).Writable :=
  fun _ _ _ live => liveIn_value live

theorem Writable.line (writable : docs.Writable)
    (present : (effectiveOf docs.user sect key).present = true) :
    ∀ c ∈ (effectiveOf docs.user sect key).value, isNewline c = false :=
  (writable sect key _ (effectiveOf_live.mpr ⟨present, rfl⟩)).2.2

/-- A rename that a visit follows: the setting is live in the user's file with a
value that was chosen, the new file has it under another name, and the user's file
has not. -/
structure Follows (docs : Sources) (forced : List (Text × Text)) (sk : Text × Text)
    (move : MovedTarget) : Prop where
  unforced : keyId sk ∉ forced.map fun f => lower f.1
  unknown : (effectiveOf docs.next sk.1 sk.2).known = false
  moved : (movedKeys docs.next).get (keyId sk) = some move
  chosen : ∃ value, liveIn docs.user sk.1 sk.2 = some value ∧
    (move.oldDefault = [] ∨ value ≠ move.oldDefault)
  free : liveIn docs.user move.sect move.key = none

theorem carry_edit (writable : docs.Writable) (token : isKeyToken key = true) (noEq : '=' ∉ key)
    (named : SectName sect) : EditFor docs.next sect key m (docs.carry m sect key) := by
  unfold carry
  dsimp only
  split
  · exact .silent m.report
  · rename_i present
    have present := not_not.mp present
    refine .carry _ _ _ ?_ ⟨token, noEq, named.1, named.2, writable.line present⟩
    split
    · exact .inl rfl
    · exact .inr rfl

theorem mergeKey_edit (writable : docs.Writable) (token : isKeyToken key = true) (noEq : '=' ∉ key)
    (named : SectName sect) : ∃ sect' key',
      EditFor docs.next sect' key' m (docs.mergeKey forced m (sect, key)) ∧
      (SamePair sect' key' sect key ∨ ∃ move, docs.Follows forced (sect, key) move ∧
        sect' = move.sect ∧ key' = move.key) := by
  have own : SamePair sect key sect key := ⟨rfl, rfl⟩
  have silent : EditFor docs.next sect key m m := .silent m.report
  unfold mergeKey
  dsimp only
  split
  · exact ⟨sect, key, silent, .inl own⟩
  rename_i unforced
  split
  · unfold mergeKnown
    dsimp only
    split
    · exact ⟨sect, key, .silent _, .inl own⟩
    split
    · unfold mergeChanged
      dsimp only
      split
      · rename_i present
        split
        · exact ⟨sect, key, silent, .inl own⟩
        · rename_i i last
          exact ⟨sect, key, .rewrite i _ _ last (writable.line present), .inl own⟩
      · split
        · exact ⟨sect, key, silent, .inl own⟩
        · rename_i i last
          exact ⟨sect, key, .commentOut i _ last, .inl own⟩
    split
    · exact ⟨sect, key, .silent _, .inl own⟩
    · exact ⟨sect, key, silent, .inl own⟩
  · rename_i unknown
    unfold mergeUnknown
    dsimp only
    split
    · exact ⟨sect, key, carry_edit writable token noEq named, .inl own⟩
    · rename_i move moved
      split
      · exact ⟨sect, key, silent, .inl own⟩
      rename_i present
      have present := not_not.mp present
      split
      · exact ⟨sect, key, .silent _, .inl own⟩
      rename_i chosen
      split
      · exact ⟨sect, key, carry_edit writable token noEq named, .inl own⟩
      rename_i already
      split
      · exact ⟨sect, key, carry_edit writable token noEq named, .inl own⟩
      · rename_i i last
        refine ⟨move.sect, move.key, .rewrite i _ _ last (writable.line present),
          .inr ⟨move, ⟨unforced, by simpa using unknown, moved, ?_, ?_⟩, rfl, rfl⟩⟩
        · refine ⟨_, effectiveOf_live.mpr ⟨present, rfl⟩, ?_⟩
          exact (em _).imp_right fun default same => chosen ⟨default, same⟩
        · rw [effectiveOf_present] at already
          simpa using already

theorem mergeKey_kept {value : Text} (unforced : keyId (sect, key) ∉ forced.map fun f => lower f.1)
    (known : (effectiveOf docs.next sect key).known = true)
    (live : liveIn docs.user sect key = some value)
    (unretired : (keyId (sect, key), lower value) ∉ retiredDefaults docs.next)
    (changed : liveIn docs.base sect key ≠ some value) : ∃ i report,
      lastDeclared docs.next sect key = some i ∧
      docs.mergeKey forced m (sect, key) =
        { m.replace i (rewritten docs.next i value) with report := report } := by
  obtain ⟨present, value_eq⟩ := effectiveOf_live.mp live
  have changed : docs.changedByUser sect key := by
    unfold changedByUser
    by_contra same
    rw [not_or, not_not, not_and, not_not] at same
    apply changed
    rw [effectiveOf_live, ← same.1, ← same.2 present]
    exact ⟨present, value_eq⟩
  obtain ⟨line, member, declares⟩ := effectiveOf_known.mp known
  cases last : lastDeclared docs.next sect key with
  | none =>
    have := lastIndex_eq_none.mp last line member
    simp [declares] at this
  | some i =>
    unfold keyId at unforced unretired
    unfold mergeKey
    rw [if_neg unforced, if_pos known]
    unfold mergeKnown
    dsimp only
    rw [value_eq, if_neg fun h => unretired h.2, if_pos changed]
    unfold mergeChanged
    rw [if_pos present, last, value_eq]
    exact ⟨i, _, rfl, rfl⟩

theorem mergeKey_carried {value : Text}
    (unforced : keyId (sect, key) ∉ forced.map fun f => lower f.1)
    (unknown : (effectiveOf docs.next sect key).known = false)
    (live : liveIn docs.user sect key = some value)
    (unmoved : (movedKeys docs.next).get (keyId (sect, key)) = none) : ∃ note report,
      (note = retiredNote ∨ note = carriedNote) ∧
      docs.mergeKey forced m (sect, key) =
        { (m.append sect note).append sect (assignText key value) with report := report } := by
  obtain ⟨present, value_eq⟩ := effectiveOf_live.mp live
  unfold keyId at unforced unmoved
  unfold mergeKey
  dsimp only at unforced ⊢
  rw [if_neg unforced, if_neg (by simp [unknown])]
  unfold mergeUnknown
  dsimp only
  rw [unmoved]
  dsimp only
  unfold carry
  dsimp only
  rw [if_neg (not_not.mpr present), value_eq]
  refine ⟨_, _, ?_, rfl⟩
  split
  · exact .inl rfl
  · exact .inr rfl

theorem forceKey_edit {f : Text × Text} (free : ∀ c ∈ f.2, isNewline c = false)
    (ok : lastDeclared docs.next (splitDotted f.1).1 (splitDotted f.1).2 = none →
      Appendable (splitDotted f.1).1 (splitDotted f.1).2 f.2) :
    EditFor docs.next (splitDotted f.1).1 (splitDotted f.1).2 m (docs.forceKey m f) := by
  unfold forceKey
  dsimp only
  cases last : lastDeclared docs.next (splitDotted f.1).1 (splitDotted f.1).2 with
  | some i => exact .rewrite i f.2 _ last free
  | none => exact .add f.2 _ (ok last)

end Sources

end EdvrPatch.Ini
