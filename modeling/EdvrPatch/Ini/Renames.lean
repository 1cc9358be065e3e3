import EdvrPatch.Ini.UntouchedSettings

/-! A renamed setting: the new file says where it was, and the user's value goes
there. The visit of the new name can come later and take the line back. -/
namespace EdvrPatch.Ini

open Lib

/-- A setting of the user's file that the new file has under another name: its value
was chosen, no other old name of the new one is live, the new name is not live and
not forced. -/
structure Renamed (docs : Sources) (forced : List (Text × Text)) (sect key value : Text)
    (move : MovedTarget) : Prop where
  moved : (movedKeys docs.next).get (keyId (sect, key)) = some move
  declared : ∃ line ∈ docs.next, line.declares move.sect move.key
  live : liveIn docs.user sect key = some value
  chosen : move.oldDefault = [] ∨ value ≠ move.oldDefault
  alone : ∀ sect' key' move', (movedKeys docs.next).get (keyId (sect', key')) = some move' →
    SamePair move'.sect move'.key move.sect move.key → liveIn docs.user sect' key' ≠ none →
      SamePair sect' key' sect key
  free : liveIn docs.user move.sect move.key = none
  unforced : keyId (move.sect, move.key) ∉ forced.map fun f => lower f.1

structure Followable (docs : Sources) (forced : List (Text × Text)) (sect key : Text) : Prop where
  visited : Visited docs.user sect key
  unforced : keyId (sect, key) ∉ forced.map fun f => lower f.1
  unknown : (effectiveOf docs.next sect key).known = false

/-- A visit of the new name after that of the old one comments out the line that the
value went to. -/
def TakenBack (docs : Sources) (old : Text × Text) (move : MovedTarget) : Prop :=
  (∃ sk ∈ (userKeys docs.user docs.base docs.haveBase).dropWhile (fun sk => keyId sk ≠ keyId old),
    SamePair sk.1 sk.2 move.sect move.key) ∧
  docs.offLine move.sect move.key = lastDeclared docs.next move.sect move.key

instance (docs : Sources) (old : Text × Text) (move : MovedTarget) :
    Decidable (TakenBack docs old move) :=
  inferInstanceAs (Decidable (_ ∧ _))

/-- What the new file's own lines say of a setting that the user's file has not
live, once its visit is over. -/
def leftLive (docs : Sources) (sect key : Text) : Option Text :=
  if ∃ sk ∈ userKeys docs.user docs.base docs.haveBase, SamePair sk.1 sk.2 sect key then
    match docs.offLine sect key with
    | none => liveIn docs.next sect key
    | some k => liveIn (docs.next.take k) sect key
  else liveIn docs.next sect key

/-- Nobody writes the old name: it is not live in the new file, not forced, and not
kept as a setting of the user's. -/
structure Gone (docs : Sources) (forced : List (Text × Text)) (sect key value : Text) : Prop where
  unshipped : liveIn docs.next sect key = none
  unforced : ∀ f ∈ forced, ¬SamePair (splitDotted f.1).1 (splitDotted f.1).2 sect key
  unkept : ¬(Visited docs.user sect key ∧ UserSetting docs forced sect key value)

/-- The value is read under the new name, and none is live under the old one. -/
def CarriesOver (text sect key value : Text) (move : MovedTarget) : Prop :=
  Gives text move.sect move.key value ∧ liveIn (iniParse text) sect key = none

/-! ### The lines of the new name -/

section

variable {next : IniDoc} {sect key value : Text} {m : Edits} {table : Nat → Option Text}

theorem Told.tells_written (told : Told next sect key m table) (read : ReadFrom [] next) {i : Nat}
    (last : lastDeclared next sect key = some i) (found : table i = some (rewritten next i value))
    (trimmed : Trimmed value) (free : CommentFree value) :
    Tells next m sect key (some (writtenValue value)) := by
  obtain ⟨line, here, declares⟩ := lastDeclared_spec last
  exact Ini.tells_written read told.keyed told.top told.block last
    ((told.lines i line here declares).trans found) trimmed free

theorem live_solid (read : ReadFrom [] next) {k : Nat} (last : lastLive next sect key = some k)
    {line : IniLine} (here : next[k]? = some line) : trim line.text ≠ [] := by
  intro blank
  obtain ⟨line', here', kind, -⟩ := lastLive_spec last
  cases here.symm.trans here'
  obtain ⟨at_, parsed⟩ := read.mem (List.mem_of_getElem? here)
  rw [readLine_blank (trim_eq_nil_iff.mp blank)] at parsed
  rw [parsed] at kind
  cases kind

theorem liveIn_behind {k : Nat} (last : lastLive next sect key = some k) :
    liveIn (next.drop (k + 1)) sect key = none := by
  cases live : liveIn (next.drop (k + 1)) sect key with
  | none => rfl
  | some value =>
    obtain ⟨line, member, kind, declares, -⟩ := liveIn_some live
    obtain ⟨j, at_j⟩ := List.getElem?_of_mem member
    rw [List.getElem?_drop] at at_j
    have := (lastIndex_eq_some last).2 _ line (by omega) at_j
    simp [kind, declares] at this

theorem Told.tells_off (told : Told next sect key m table) (read : ReadFrom [] next) {k : Nat}
    (last : lastLive next sect key = some k)
    (off : ∀ i, table i = if i = k then some (commentOut (next.getD k {}).text) else none) :
    Tells next m sect key (liveIn (next.take k) sect key) := by
  refine ⟨told.keyed, told.top, ?_⟩
  rw [told.block, Option.none_or]
  obtain ⟨line, here, -, -⟩ := lastLive_spec last
  obtain ⟨inside, line_eq⟩ := List.getElem?_eq_some_iff.mp here
  have whole : next = next.take k ++ line :: next.drop (k + 1) := by
    rw [← line_eq, List.getElem_cons_drop, List.take_append_drop]
  have length : (next.take k).length = k := by simp; omega
  have quiet := told.keyed.quiet sect key
  have kept (i : Nat) (ne : i ≠ k) (line : IniLine) (here : next[i]? = some line)
      (declares : line.declares sect key) : m.replacements.get i = none := by
    rw [told.lines i line here declares, off, if_neg ne]
  have front : liveIn (slotted m 0 (next.take k)) sect key = liveIn (next.take k) sect key := by
    refine liveIn_slotted_kept quiet fun j other at_j => ?_
    have before : j < k := by
      have := (List.getElem?_eq_some_iff.mp at_j).1
      omega
    rw [List.getElem?_take_of_lt before] at at_j
    rw [Nat.zero_add]
    exact ⟨at_j, kept j (by omega) other at_j⟩
  have later : liveIn (slotted m (k + 1) (next.drop (k + 1))) sect key = none := by
    rw [liveIn_slotted_kept quiet fun j other at_j => ?_]
    · exact liveIn_behind last
    · rw [List.getElem?_drop] at at_j
      exact ⟨at_j, kept _ (by omega) other at_j⟩
  have dead : (readLine line.sect (commentOut line.text) []).liveAt sect key = none := by
    exact IniLine.liveAt_of_kind ((commentOut_reads (live_solid read last here)).2 _) sect key
  have found : m.replacements.get k = some (commentOut line.text) := by
    obtain ⟨line', here', -, declares⟩ := lastLive_spec last
    cases here.symm.trans here'
    rw [told.lines k line here declares, off, if_pos rfl]
    simp [List.getD_eq_getElem?_getD, here]
  conv_lhs => rw [whole]
  rw [slotted_append, liveIn_append, length, Nat.zero_add, slotted, liveIn, later, found, front]
  rw [dead]
  rfl

end

/-! ### The visit of the old name -/

section

variable {next user : Text} {base : Option Text} {forced : List (Text × Text)}
variable {sect key value : Text} {move : MovedTarget}

variable {docs : Sources} {key' : Text}

theorem Renamed.congr {sect' : Text} (renamed : Renamed docs forced sect key value move)
    (same : SamePair sect key sect' key') : Renamed docs forced sect' key' value move := by
  refine { renamed with moved := ?_, live := ?_, alone := ?_ }
  · rw [← keyId_congr same]
    exact renamed.moved
  · rw [← liveIn_congr same]
    exact renamed.live
  · intro other otherKey move' moved into live
    have here := renamed.alone other otherKey move' moved into live
    exact ⟨here.1.trans same.1, here.2.trans same.2⟩

theorem Followable.congr {sect' : Text} (followable : Followable docs forced sect key)
    (same : SamePair sect key sect' key') : Followable docs forced sect' key' := by
  obtain ⟨⟨line, first, here⟩, unforced, unknown⟩ := followable
  refine ⟨⟨line, ?_, here.1.trans same.1, here.2.trans same.2⟩, ?_, ?_⟩
  · rw [← keyId_congr same]
    exact first
  · rw [← keyId_congr same]
    exact unforced
  · rw [← effectiveOf_congr same]
    exact unknown

theorem Renamed.other (renamed : Renamed docs forced sect key value move) :
    ¬SamePair move.sect move.key sect key := by
  intro same
  have free := renamed.free
  rw [liveIn_congr same] at free
  cases free.symm.trans renamed.live

theorem Renamed.unset (renamed : Renamed docs forced sect key value move) :
    Unset docs forced move.sect move.key :=
  ⟨effectiveOf_known.mpr renamed.declared, renamed.unforced, .inl renamed.free⟩

theorem Renamed.last (renamed : Renamed docs forced sect key value move) :
    ∃ t, lastDeclared docs.next move.sect move.key = some t := by
  obtain ⟨line, member, declares⟩ := renamed.declared
  cases last : lastDeclared docs.next move.sect move.key with
  | some t => exact ⟨t, rfl⟩
  | none =>
    have := lastIndex_eq_none.mp last line member
    simp [declares] at this

theorem Sources.mergeKey_followed {m : Edits} {t : Nat}
    (renamed : Renamed docs forced sect key value move)
    (unforced : keyId (sect, key) ∉ forced.map fun f => lower f.1)
    (unknown : (effectiveOf docs.next sect key).known = false)
    (last : lastDeclared docs.next move.sect move.key = some t) : ∃ report,
      docs.mergeKey forced m (sect, key) =
        { m.replace t (rewritten docs.next t value) with report := report } := by
  obtain ⟨present, value_eq⟩ := effectiveOf_live.mp renamed.live
  have moved := renamed.moved
  have absent : (effectiveOf docs.user move.sect move.key).present = false := by
    rw [effectiveOf_present, renamed.free]
    rfl
  unfold keyId at unforced moved
  unfold mergeKey
  rw [if_neg unforced, if_neg (by simp [unknown])]
  unfold mergeUnknown
  dsimp only
  rw [moved]
  dsimp only
  rw [if_neg (not_not.mpr present), value_eq,
    if_neg fun stale => renamed.chosen.elim stale.1 fun chosen => chosen stale.2, absent,
    if_neg Bool.false_ne_true, last]
  exact ⟨_, rfl⟩

variable {sk : Text × Text}

theorem Renamed.follows_old
    (renamed : Renamed (readSources next user base) forced sect key value move)
    {move' : MovedTarget} (follows : (readSources next user base).Follows forced sk move')
    (into : SamePair move'.sect move'.key move.sect move.key) : SamePair sk.1 sk.2 sect key := by
  obtain ⟨value', live, -⟩ := follows.chosen
  refine renamed.alone sk.1 sk.2 move' follows.moved into ?_
  rw [live]
  simp

/-! ### What the edits say of the new name -/

theorem lastLive_of_off {k : Nat} (off : docs.offLine sect key = some k) :
    lastLive docs.next sect key = some k := by
  unfold Sources.offLine at off
  split at off
  · exact off
  · cases off

theorem takenBack_iff (renamed : Renamed (readSources next user base) forced sect key value move)
    {front back : List (Text × Text)}
    (keys : userKeys (iniParse user) (iniParse (base.getD next)) base.isSome = front ++ sk :: back)
    (same : SamePair sk.1 sk.2 sect key)
    (others : ∀ sk' ∈ front ++ back, keyId sk' ≠ keyId (sect, key)) :
    TakenBack (readSources next user base) (sect, key) move ↔
      (∃ sk ∈ back, SamePair sk.1 sk.2 move.sect move.key) ∧
        (readSources next user base).offLine move.sect move.key =
          lastDeclared (iniParse next) move.sect move.key := by
  have behind : (userKeys (iniParse user) (iniParse (base.getD next)) base.isSome).dropWhile
      (fun sk => keyId sk ≠ keyId (sect, key)) = sk :: back := by
    rw [keys, List.dropWhile_append_of_pos, List.dropWhile_cons_of_neg]
    · simpa using keyId_congr same
    · intro sk' member
      simpa using others sk' (List.mem_append_left _ member)
  unfold TakenBack
  change (∃ sk ∈ (userKeys (iniParse user) (iniParse (base.getD next)) base.isSome).dropWhile _, _) ∧
    _ ↔ _
  rw [behind, List.exists_mem_cons_iff, or_iff_right]
  · rfl
  · exact fun here => renamed.other ⟨here.1.symm.trans same.1, here.2.symm.trans same.2⟩

theorem edits_follow (tidy : Tidy (iniParse next) forced)
    (renamed : Renamed (readSources next user base) forced sect key value move)
    (followable : Followable (readSources next user base) forced sect key) :
    Tells (iniParse next) ((readSources next user base).edits forced) move.sect move.key
        (if TakenBack (readSources next user base) (sect, key) move then
          leftLive (readSources next user base) move.sect move.key
        else some (writtenValue value)) ∧
      ∀ t, lastDeclared (iniParse next) move.sect move.key = some t →
        ((readSources next user base).edits forced).replacements.get t ≠ none := by
  have readable := tidy.readable
  obtain ⟨line, first, same⟩ := followable.visited
  have renamed' := renamed.congr ⟨same.1.symm, same.2.symm⟩
  obtain ⟨-, unforced, unknown⟩ := followable.congr ⟨same.1.symm, same.2.symm⟩
  obtain ⟨front, back, keys, _, others⟩ :=
    @userKeys_split (iniParse user) (iniParse (base.getD next)) base.isSome _ _ first
  obtain ⟨t, last⟩ := renamed.last
  obtain ⟨trimmed, free, -⟩ := liveIn_value renamed.live
  have unfollowed (sk : Text × Text) (member : sk ∈ front ++ back) (move' : MovedTarget)
      (follows : (readSources next user base).Follows forced sk move')
      (into : SamePair move'.sect move'.key move.sect move.key) : False :=
    others sk member (keyId_congr (renamed.follows_old follows into))
  have inside (sk : Text × Text) (member : sk ∈ front ++ (line.sect, line.key) :: back) :
      sk ∈ userKeys (iniParse user) (iniParse (base.getD next)) base.isSome := by
    rw [keys]
    exact member
  -- the visits before that of the old name
  have told := (Told.start { twoWay := !base.isSome }).visits readable
    (fun sk member => inside sk (List.mem_append_left _ member)) renamed.unset
    fun sk member => unfollowed sk (List.mem_append_left _ member)
  rw [edits_split keys]
  generalize front.foldl ((readSources next user base).mergeKey forced)
    { report := { twoWay := !base.isSome } } = m at told
  -- the visit of the old name
  obtain ⟨_, _, edit, -⟩ := @visit_edit next user base forced (line.sect, line.key)
    (inside _ (List.mem_append_right _ List.mem_cons_self)) m
  obtain ⟨report, visit⟩ := @Sources.mergeKey_followed _ _ _ _ _ _ m t renamed' unforced unknown last
  rw [visit] at edit ⊢
  have told := told.replace (edit.keyed readable.read readable.laid told.keyed)
    (edit.topPlain readable.read readable.head told.top)
  -- the visits after it, and the forced values
  have told := (told.visits readable
    (fun sk member => inside sk (List.mem_append_right _ (List.mem_cons_of_mem _ member)))
    renamed.unset fun sk member => unfollowed sk (List.mem_append_right _ member)).forces
      user base tidy renamed.unforced
  have taken := takenBack_iff renamed keys same others
  generalize forced.foldl (readSources next user base).forceKey _ = m' at told ⊢
  have replaced {text : Text} (found : m'.replacements.get t = some text) (t' : Nat)
      (last' : lastDeclared (iniParse next) move.sect move.key = some t') :
      m'.replacements.get t' ≠ none := by
    rw [← Option.some.inj (last.symm.trans last'), found]
    exact Option.some_ne_none text
  obtain ⟨target, here, declares⟩ := lastDeclared_spec last
  have said := told.lines t target here declares
  split
  · rename_i back_
    obtain ⟨member, off⟩ := taken.mp back_
    have off := off.trans last
    rw [if_pos member, off] at told said
    refine ⟨?_, replaced (said.trans (Function.update_self ..))⟩
    have left : leftLive (readSources next user base) move.sect move.key =
        liveIn ((iniParse next).take t) move.sect move.key := by
      obtain ⟨sk, later, into⟩ := member
      unfold leftLive
      rw [if_pos ⟨sk, inside sk (List.mem_append_right _ (List.mem_cons_of_mem _ later)), into⟩, off]
      rfl
    rw [left]
    refine told.tells_off readable.read (lastLive_of_off off) fun i => ?_
    rw [commentedAt_some]
    split
    · rfl
    · rename_i ne
      rw [Function.update_of_ne ne]
      split
      · rw [commentedAt_some, if_neg ne]
      · rfl
  · rename_i standing
    have kept : m'.replacements.get t = some (rewritten (iniParse next) t value) := by
      rw [said]
      split
      · rename_i member
        cases off : (readSources next user base).offLine move.sect move.key with
        | none => exact Function.update_self ..
        | some k =>
          have ne : t ≠ k := by
            rintro rfl
            exact standing (taken.mpr ⟨member, off.trans last.symm⟩)
          rw [commentedAt_some, if_neg ne]
          exact Function.update_self ..
      · exact Function.update_self ..
    exact ⟨told.tells_written readable.read last (said.symm.trans kept) trimmed free, replaced kept⟩

theorem edits_left (tidy : Tidy (iniParse next) forced)
    (renamed : Renamed (readSources next user base) forced sect key value move)
    (unfollowable : ¬Followable (readSources next user base) forced sect key) :
    Tells (iniParse next) ((readSources next user base).edits forced) move.sect move.key
      (leftLive (readSources next user base) move.sect move.key) := by
  have told := ((Told.start { twoWay := !base.isSome }).visits tidy.readable (List.Subset.refl _)
    renamed.unset fun sk member move' follows into => unfollowable ?_).forces
      user base tidy renamed.unforced
  · unfold leftLive
    change Told _ _ _ ((readSources next user base).edits forced) _ at told
    change Tells _ _ _ _ (if ∃ sk ∈ userKeys (iniParse user) (iniParse (base.getD next)) base.isSome,
      SamePair sk.1 sk.2 move.sect move.key then _ else _)
    split
    · rename_i visited
      rw [if_pos visited] at told
      cases off : (readSources next user base).offLine move.sect move.key with
      | none =>
        rw [off] at told
        exact told.tells_own
      | some k =>
        rw [off] at told
        exact told.tells_off tidy.readable.read (lastLive_of_off off) fun i => commentedAt_some ..
    · rename_i unvisited
      rw [if_neg unvisited] at told
      exact told.tells_own
  · have here := renamed.follows_old follows into
    refine ⟨?_, ?_, ?_⟩
    · by_contra shadowed
      exact unvisited renamed.live shadowed sk member here
    · rw [← keyId_congr here]
      exact follows.unforced
    · rw [← effectiveOf_congr here]
      exact follows.unknown

/-! ### What the edits say of the old name -/

theorem edits_old_followed (tidy : Tidy (iniParse next) forced)
    (renamed : Renamed (readSources next user base) forced sect key value move)
    (followable : Followable (readSources next user base) forced sect key) :
    Tells (iniParse next) ((readSources next user base).edits forced) sect key none := by
  have unshipped : liveIn (iniParse next) sect key = none := by
    cases live : liveIn (iniParse next) sect key with
    | none => rfl
    | some value =>
      obtain ⟨line, member, -, declares, -⟩ := liveIn_some live
      cases followable.unknown.symm.trans (effectiveOf_known.mpr ⟨line, member, declares⟩)
  rw [← unshipped]
  refine edits_unsaid tidy (unfollowed_of_live renamed.live) (tidy.unforced followable.unforced) ?_
  intro sk _ same m keyed top
  have back : SamePair sect key sk.1 sk.2 := ⟨same.1.symm, same.2.symm⟩
  obtain ⟨-, unforced, unknown⟩ := followable.congr back
  obtain ⟨t, last⟩ := renamed.last
  obtain ⟨report, visit⟩ := @Sources.mergeKey_followed _ _ _ _ _ _ m t (renamed.congr back) unforced
    unknown last
  rw [show sk = (sk.1, sk.2) from rfl, visit]
  have edit : EditFor (iniParse next) move.sect move.key m _ :=
    .rewrite t value report last (liveIn_value renamed.live).2.2
  exact edit.past tidy.readable renamed.other keyed top

theorem Sources.mergeKey_unmeant {m : Edits} (live : liveIn docs.user sect key = some value)
    (known : keyId (sect, key) ∉ forced.map (fun f => lower f.1) → (effectiveOf docs.next sect key).known = true)
    (unmeant : ¬UserSetting docs forced sect key value) : ∃ report,
      docs.mergeKey forced m (sect, key) = { m with report := report } := by
  by_cases unforced : keyId (sect, key) ∈ forced.map fun f => lower f.1
  · refine ⟨m.report, ?_⟩
    unfold keyId at unforced
    unfold mergeKey
    exact if_pos unforced
  have known := known unforced
  obtain ⟨present, value_eq⟩ := effectiveOf_live.mp live
  by_cases stale : (keyId (sect, key), lower value) ∈ retiredDefaults docs.next
  · unfold keyId at unforced stale
    unfold mergeKey
    dsimp only at unforced stale ⊢
    rw [if_neg unforced, if_pos known]
    unfold mergeKnown
    dsimp only
    rw [value_eq, if_pos ⟨present, stale⟩]
    exact ⟨_, rfl⟩
  · refine mergeKey_same known ?_
    by_contra changed
    refine unmeant ⟨live, unforced, stale, ?_⟩
    rw [if_pos known]
    intro unchanged
    rw [live, unchanged] at changed
    exact changed rfl

variable {doc : IniDoc}

theorem Quiet.liveAt_slot {m : Edits} (quiet : Quiet doc m sect key) {i : Nat} {line : IniLine}
    (here : doc[i]? = some line) (silent : ¬line.declares sect key) :
    (match m.replacements.get i with
      | some text => readLine line.sect text []
      | none => line).liveAt sect key = none := by
  cases found : m.replacements.get i with
  | none => exact if_neg fun live => silent live.2
  | some text => exact quiet i text line found here silent

theorem liveIn_slotted_congr {m m' : Edits} (quiet : Quiet doc m sect key)
    (quiet' : Quiet doc m' sect key)
    (same : ∀ i line, doc[i]? = some line → line.declares sect key → m'.replacements.get i = m.replacements.get i)
    {lines : IniDoc} {i : Nat} (suffix : doc.drop i = lines) :
    liveIn (slotted m' i lines) sect key = liveIn (slotted m i lines) sect key := by
  induction lines generalizing i with
  | nil => rfl
  | cons line later ih =>
    obtain ⟨here, suffix⟩ := drop_cons suffix
    rw [slotted, slotted, liveIn, liveIn, ih suffix]
    congr 1
    by_cases declares : line.declares sect key
    · rw [same i line here declares]
    · exact (quiet'.liveAt_slot here declares).trans (quiet.liveAt_slot here declares).symm

theorem Tells.past {m m' : Edits} {said : Option Text} (tells : Tells doc m sect key said)
    (past : Past doc sect key m m') : Tells doc m' sect key said := by
  refine ⟨past.keyed, past.top, ?_⟩
  rw [past.untouched.block, liveIn_slotted_congr (tells.keyed.quiet sect key)
    (past.keyed.quiet sect key) past.untouched.lines List.drop_zero]
  exact tells.live

theorem lastDeclared_congr {sect' : Text} (same : SamePair sect key sect' key') :
    lastDeclared doc sect key = lastDeclared doc sect' key' := by
  unfold lastDeclared
  simp only [IniLine.declares_congr same]

theorem Sources.forceKey_cases {m : Edits} {f : Text × Text} :
    (∃ i report, lastDeclared docs.next (splitDotted f.1).1 (splitDotted f.1).2 = some i ∧
      docs.forceKey m f = { m.replace i (rewritten docs.next i f.2) with report := report }) ∨
    ∃ report, docs.forceKey m f =
      { m.append (splitDotted f.1).1 (assignText (splitDotted f.1).2 f.2) with
        report := report } := by
  unfold forceKey
  dsimp only
  cases lastDeclared docs.next (splitDotted f.1).1 (splitDotted f.1).2 with
  | some i => exact .inl ⟨i, _, rfl, rfl⟩
  | none => exact .inr ⟨_, rfl⟩

theorem force_live {f : Text × Text} (ok : ForcedOk f) (readable : Readable (iniParse next))
    (same : SamePair (splitDotted f.1).1 (splitDotted f.1).2 sect key) {m : Edits}
    (keyed : m.Keyed (iniParse next)) (top : m.TopPlain) :
    ∃ said, Tells (iniParse next) ((readSources next user base).forceKey m f) sect key
      (some said) := by
  have edit := @Sources.forceKey_edit (readSources next user base) m f ok.writes.valueLine
    fun _ => ok.writes
  have keyed' := edit.keyed readable.read readable.laid keyed
  have top' := edit.topPlain readable.read readable.head top
  rcases @Sources.forceKey_cases (readSources next user base) m f with
    ⟨i, report, last, step⟩ | ⟨report, step⟩
  · change lastDeclared (iniParse next) _ _ = some i at last
    change _ = { m.replace i (rewritten (iniParse next) i f.2) with report := report } at step
    rw [step] at keyed' top' ⊢
    obtain ⟨line, here, declares⟩ := lastDeclared_spec last
    obtain ⟨found, reads, -⟩ := rewritten_reads readable.read here declares.setting f.2
    have declares := (IniLine.declares_congr same).mp declares
    have live : liveIn (slotted _ 0 (iniParse next)) sect key = some found :=
      liveIn_slotted_last (keyed'.quiet sect key) ((lastDeclared_congr same).symm.trans last)
        (Store.get_set_self ..) fun line' here' => by
          cases here.symm.trans here'
          rw [reads]
          exact IniLine.liveAt_of_setting rfl declares.2
    obtain ⟨said, said_eq⟩ : ∃ said, (blockLive m sect key).or (some found) = some said :=
      Option.isSome_iff_exists.mp (by simp)
    refine ⟨said, keyed', top', ?_⟩
    rw [live]
    exact said_eq
  · rw [step] at keyed' top' ⊢
    obtain ⟨found, reads, -⟩ := assignText_reads ok.writes.token ok.writes.noEq f.2
    have block := blockLive_append keyed (splitDotted f.1).1 (assignText (splitDotted f.1).2 f.2) sect
      key
    rw [if_pos same.1, reads, IniLine.liveAt_of_setting rfl ⟨rfl, same.2⟩] at block
    refine ⟨found, keyed', top', ?_⟩
    change (blockLive (m.append _ _) sect key).or _ = some found
    rw [block]
    rfl

theorem forces_live {fs : List (Text × Text)} (ok : ∀ f ∈ fs, ForcedOk f)
    (readable : Readable (iniParse next)) {m : Edits} (keyed : m.Keyed (iniParse next))
    (top : m.TopPlain)
    (said : (∃ said, Tells (iniParse next) m sect key (some said)) ∨
      ∃ f ∈ fs, SamePair (splitDotted f.1).1 (splitDotted f.1).2 sect key) :
    ∃ said, Tells (iniParse next) (fs.foldl (readSources next user base).forceKey m) sect key
      (some said) := by
  induction fs generalizing m with
  | nil => simpa using said
  | cons f fs ih =>
    have okay := ok f List.mem_cons_self
    have ok' := fun g member => ok g (List.mem_cons_of_mem _ member)
    by_cases same : SamePair (splitDotted f.1).1 (splitDotted f.1).2 sect key
    · obtain ⟨value, tells⟩ := @force_live next user base _ _ f okay readable same m keyed top
      exact ih ok' tells.keyed tells.top (.inl ⟨value, tells⟩)
    · have past := @force_past next user base _ _ f okay readable same m keyed top
      refine ih ok' past.keyed past.top ?_
      rcases said with ⟨value, tells⟩ | ⟨g, member, here⟩
      · exact .inl ⟨value, tells.past past⟩
      · rcases List.mem_cons.mp member with rfl | member
        · exact absurd here same
        · exact .inr ⟨g, member, here⟩

/-! ### Renamed settings keep their values -/

/-- The last line of the new file is whole, where it belongs to a setting. -/
def Whole (next : IniDoc) (sect key : Text) : Prop :=
  ∀ last, next.getLast? = some last → last.declares sect key → last.eol ≠ []

theorem Whole.merged {said : Option Text} (whole : Whole (iniParse next) sect key)
    (tidy : Tidy (iniParse next) forced)
    (tells : Tells (iniParse next) ((readSources next user base).edits forced) sect key said) :
    liveIn (iniParse (mergeIni next user base forced).1) sect key = said :=
  tells.merged tidy fun last isLast bare _ _ declares => whole last isLast declares bare

theorem Whole.congr {sect' : Text} (whole : Whole doc sect key)
    (same : SamePair sect key sect' key') : Whole doc sect' key' :=
  fun last isLast declares => whole last isLast ((IniLine.declares_congr same).mpr declares)

theorem visits_keyed (readable : Readable (iniParse next)) {keys : List (Text × Text)}
    (inside : keys ⊆ userKeys (iniParse user) (iniParse (base.getD next)) base.isSome) {m : Edits}
    (keyed : m.Keyed (iniParse next)) (top : m.TopPlain) :
    (keys.foldl ((readSources next user base).mergeKey forced) m).Keyed (iniParse next) ∧
      (keys.foldl ((readSources next user base).mergeKey forced) m).TopPlain := by
  induction keys generalizing m with
  | nil => exact ⟨keyed, top⟩
  | cons sk keys ih =>
    obtain ⟨here, later⟩ := List.cons_subset.mp inside
    obtain ⟨_, _, edit, -⟩ := @visit_edit next user base forced sk here m
    exact ih later (edit.keyed readable.read readable.laid keyed)
      (edit.topPlain readable.read readable.head top)

theorem gone_iff (tidy : Tidy (iniParse next) forced)
    (live : liveIn (iniParse user) sect key = some value)
    (unfollowable : ¬Followable (readSources next user base) forced sect key)
    (whole : Whole (iniParse next) sect key) :
    liveIn (iniParse (mergeIni next user base forced).1) sect key = none ↔
      Gone (readSources next user base) forced sect key value := by
  by_cases named : ∃ f ∈ forced, SamePair (splitDotted f.1).1 (splitDotted f.1).2 sect key
  · obtain ⟨keyed₀, top₀⟩ := start_keyed (iniParse next) { twoWay := !base.isSome }
    have visits := @visits_keyed next user base forced tidy.readable _ (List.Subset.refl _) _ keyed₀
      top₀
    obtain ⟨said, tells⟩ := @forces_live next user base _ _ forced tidy.writes tidy.readable _
      visits.1 visits.2 (.inr named)
    rw [whole.merged tidy tells]
    obtain ⟨f, member, same⟩ := named
    exact iff_of_false nofun fun gone => gone.unforced f member same
  push Not at named
  by_cases kept : Visited (iniParse user) sect key ∧
      UserSetting (readSources next user base) forced sect key value
  · obtain ⟨⟨line, first, same⟩, setting⟩ := kept
    have back : SamePair sect key line.sect line.key := ⟨same.1.symm, same.2.symm⟩
    obtain ⟨front, back', keys, id, others⟩ :=
      @userKeys_split (iniParse user) (iniParse (base.getD next)) base.isSome _ _ first
    obtain ⟨tells, -⟩ := edits_visited tidy (setting.congr back) keys (by rw [id]; exact others)
    rw [liveIn_congr back, (whole.congr back).merged tidy tells]
    exact iff_of_false nofun fun gone => gone.unkept ⟨⟨line, first, same⟩, setting⟩
  · have tells := @edits_unsaid next user base forced _ _ tidy (unfollowed_of_live live) named ?_
    · rw [whole.merged tidy tells]
      exact ⟨fun unshipped => ⟨unshipped, named, kept⟩, fun gone => gone.unshipped⟩
    intro sk member same m keyed top
    have back : SamePair sect key sk.1 sk.2 := ⟨same.1.symm, same.2.symm⟩
    have visited : Visited (iniParse user) sect key := by
      by_contra shadowed
      exact unvisited live shadowed sk member same
    have known (unforced : keyId (sk.1, sk.2) ∉ forced.map fun f => lower f.1) :
        (effectiveOf (iniParse next) sk.1 sk.2).known = true := by
      rw [← effectiveOf_congr back]
      by_contra unknown
      refine unfollowable ⟨visited, ?_, Bool.eq_false_iff.mpr unknown⟩
      rw [keyId_congr back]
      exact unforced
    obtain ⟨report, visit⟩ := @Sources.mergeKey_unmeant forced _ _ _ (readSources next user base) m
      ((liveIn_congr back).symm.trans live) known fun setting => kept ⟨visited, setting.congr same⟩
    rw [show sk = (sk.1, sk.2) from rfl, visit]
    exact .silent keyed top report

/-- In a merge with a tidy new file and tidy forced values, the value of a renamed
setting goes to the new name exactly when it does not start like a comment and the
new name's own visit does not take the line back (or leaves the same value); all of
this where the visit of the old name gets to follow the rename. Where it does not,
the new file's own lines decide. A new name in a section with a dot is read as
another setting. -/
theorem mergeIni_carries_renamed_iff (next user : Text) (base : Option Text)
    (forced : List (Text × Text)) (sect key value : Text) (move : MovedTarget)
    (tidy : Tidy (iniParse next) forced)
    (renamed : Renamed (readSources next user base) forced sect key value move) :
    (Followable (readSources next user base) forced sect key → Undotted move.sect move.key →
      (CarriesOver (mergeIni next user base forced).1 sect key value move ↔
        if TakenBack (readSources next user base) (sect, key) move then
          leftLive (readSources next user base) move.sect move.key = some value
        else ¬MarkerLed value)) ∧
    (¬Followable (readSources next user base) forced sect key →
      Undotted move.sect move.key → Whole (iniParse next) sect key →
      Whole (iniParse next) move.sect move.key →
      (CarriesOver (mergeIni next user base forced).1 sect key value move ↔
        leftLive (readSources next user base) move.sect move.key = some value ∧
          Gone (readSources next user base) forced sect key value)) ∧
    ∀ sect' key', splitDotted (dottedName move.sect move.key) = (sect', key') → sect' ≠ [] →
      Untold next user base forced sect' key' → Whole (iniParse next) sect' key' →
      (Gives (mergeIni next user base forced).1 move.sect move.key value ↔
        Gives next move.sect move.key value) := by
  refine ⟨fun followable undotted => ?_, fun unfollowable undotted whole whole' => ?_,
    fun sect' key' cut named untold whole =>
      gives_dotted tidy renamed.unforced cut named untold whole⟩
  · obtain ⟨tells, replaced⟩ := edits_follow tidy renamed followable
    have new := tells.merged tidy fun last isLast _ _ unreplaced declares => by
      obtain ⟨init, isWhole⟩ := List.getLast?_eq_some_iff.mp isLast
      refine replaced _ ?_ unreplaced
      rw [isWhole, List.length_append, List.length_singleton, Nat.add_sub_cancel]
      exact lastIndex_concat init (by simpa using declares)
    have old := (edits_old_followed tidy renamed followable).merged tidy
      fun last isLast _ _ _ declares => by
        have known := effectiveOf_known.mpr ⟨last, List.mem_of_getLast? isLast, declares⟩
        cases followable.unknown.symm.trans known
    unfold CarriesOver
    rw [gives_iff undotted, new, and_iff_left old]
    split
    · exact Iff.rfl
    · unfold writtenValue
      split
      · rename_i led
        refine iff_of_false (fun same => ?_) (not_not.mpr led)
        obtain ⟨c, first, -⟩ := led
        rw [← Option.some.inj same] at first
        cases first
      · rename_i plain
        exact iff_of_true rfl plain
  · unfold CarriesOver
    rw [gives_iff undotted, whole'.merged tidy (edits_left tidy renamed unfollowable),
      gone_iff tidy renamed.live unfollowable whole]

end

theorem tidy_renamed : Tidy (iniParse "[s]\n# moved-from: s.old\nnew = 2\n".toList) [] where
  head := by
    have first : (iniParse "[s]\n# moved-from: s.old\nnew = 2\n".toList).head? =
        some { kind := .sect, text := "[s]".toList, eol := ['\n'], sect := "s".toList } := by
      decide +kernel
    intro line here
    cases first.symm.trans here
    decide
  writes := nofun
  tail := nofun

theorem renamed_example (base : Text) :
    Renamed (readSources "[s]\n# moved-from: s.old\nnew = 2\n".toList "[s]\nold = 5\n".toList
      (some base)) [] "s".toList "old".toList "5".toList
      { sect := "s".toList, key := "new".toList } where
  moved := show (movedKeys (iniParse "[s]\n# moved-from: s.old\nnew = 2\n".toList)).get _ = _ by
    decide +kernel
  declared := effectiveOf_known.mp
    (show (effectiveOf (iniParse "[s]\n# moved-from: s.old\nnew = 2\n".toList) _ _).known = true by
      decide +kernel)
  live := show liveIn (iniParse "[s]\nold = 5\n".toList) _ _ = _ by decide +kernel
  chosen := .inl rfl
  alone := by
    intro sect' key' move' _ _ live
    obtain ⟨value, live⟩ := Option.ne_none_iff_exists'.mp live
    obtain ⟨line, member, -, declares, -⟩ := liveIn_some live
    rcases List.mem_cons.mp member with rfl | member
    · rcases declares.1 with kind | kind <;> cases kind
    · obtain rfl := List.mem_singleton.mp member
      exact ⟨declares.2.1.symm, declares.2.2.symm⟩
  free := show liveIn (iniParse "[s]\nold = 5\n".toList) _ _ = none by decide +kernel
  unforced := by decide

theorem mergeIni_carries_renamed :
    CarriesOver (mergeIni "[s]\n# moved-from: s.old\nnew = 2\n".toList "[s]\nold = 5\n".toList
      (some "[s]\nold = 1\n".toList) []).1 "s".toList "old".toList "5".toList
      { sect := "s".toList, key := "new".toList } := by
  refine ((mergeIni_carries_renamed_iff _ _ _ _ _ _ _ _ tidy_renamed (renamed_example _)).1
    ⟨⟨_, rfl, by decide +kernel⟩, by decide +kernel, by decide +kernel⟩ (by decide)).mpr ?_
  rw [if_neg (by decide +kernel)]
  decide

/-- The value follows the rename, and the visit of the new name, which the base has
live and the user's file has not, comments its line out again. -/
theorem mergeIni_takes_back :
    Renamed (readSources "[s]\n# moved-from: s.old\nnew = 2\n".toList "[s]\nold = 5\n".toList
        (some "[s]\nnew = 1\n".toList)) [] "s".toList "old".toList "5".toList
        { sect := "s".toList, key := "new".toList } ∧
      mergeIni "[s]\n# moved-from: s.old\nnew = 2\n".toList "[s]\nold = 5\n".toList
          (some "[s]\nnew = 1\n".toList) [] =
        ("[s]\n# moved-from: s.old\n#new = 2\n".toList,
          { followed := ["s.old = 5  ->  s.new".toList], removed := ["s.new".toList] }) ∧
      ¬CarriesOver (mergeIni "[s]\n# moved-from: s.old\nnew = 2\n".toList
          "[s]\nold = 5\n".toList (some "[s]\nnew = 1\n".toList) []).1 "s".toList "old".toList
          "5".toList { sect := "s".toList, key := "new".toList } := by
  refine ⟨renamed_example _, by decide +kernel, fun carries => ?_⟩
  have live := (gives_iff (by decide)).mp carries.1
  revert live
  decide +kernel

end EdvrPatch.Ini
