import EdvrPatch.Ini.KeepsUserValues

/-! A setting the user did not touch takes what the new file ships. The proof keeps a table of what
the edits did to the setting's own lines; only its own visit and a rename followed to it change the
table. -/
namespace EdvrPatch.Ini

open Lib

/-! ### The lines of one setting -/

/-- What edits did to the lines of a setting, by their indices. -/
structure Told (next : IniDoc) (sect key : Text) (m : Edits) (table : Nat → Option Text) :
    Prop where
  keyed : m.Keyed next
  top : m.TopPlain
  block : blockLive m sect key = none
  lines : ∀ i line, next[i]? = some line → line.declares sect key →
    m.replacements.get i = table i

section

variable {next : IniDoc} {sect key : Text} {m m' : Edits} {table : Nat → Option Text}

theorem Told.start (report : MergeReport) :
    Told next sect key { report := report } fun _ => none :=
  ⟨(start_keyed next report).1, (start_keyed next report).2, rfl, fun _ _ _ _ => rfl⟩

theorem Told.past (told : Told next sect key m table) (past : Past next sect key m m') :
    Told next sect key m' table where
  keyed := past.keyed
  top := past.top
  block := past.untouched.block.trans told.block
  lines i line here declares :=
    (past.untouched.lines i line here declares).trans (told.lines i line here declares)

theorem Told.replace (told : Told next sect key m table) {i : Nat} {text : Text}
    {report : MergeReport} (keyed : { m.replace i text with report := report }.Keyed next)
    (top : { m.replace i text with report := report }.TopPlain) :
    Told next sect key { m.replace i text with report := report }
      (Function.update table i (some text)) where
  keyed := keyed
  top := top
  block := told.block
  lines j line here declares := by
    change (m.replacements.set i text).get j = _
    rw [Store.get_set, Function.update_apply, told.lines j line here declares]

theorem Told.tells_own (told : Told next sect key m fun _ => none) :
    Tells next m sect key (liveIn next sect key) := by
  refine ⟨told.keyed, told.top, ?_⟩
  rw [told.block, Option.none_or]
  exact liveIn_slotted_same (told.keyed.quiet sect key) told.lines

end

/-! ### The setting's own visit -/

/-- The line that a visit comments out: the user's file has not live what the base
has. -/
def Sources.offLine (docs : Sources) (sect key : Text) : Option Nat :=
  if liveIn docs.user sect key = none ∧ liveIn docs.base sect key ≠ none then
    lastLive docs.next sect key
  else none

def commentedAt (next : IniDoc) (table : Nat → Option Text) : Option Nat → Nat → Option Text
  | none => table
  | some k => Function.update table k (some (commentOut (next.getD k {}).text))

theorem commentedAt_some (next : IniDoc) (table : Nat → Option Text) (k i : Nat) :
    commentedAt next table (some k) i =
      if i = k then some (commentOut (next.getD k {}).text) else table i :=
  Function.update_apply ..

theorem commentedAt_twice (next : IniDoc) (table : Nat → Option Text) (line : Option Nat) :
    commentedAt next (commentedAt next table line) line = commentedAt next table line := by
  cases line with
  | none => rfl
  | some k => exact Function.update_idem ..

theorem lastLive_congr {doc : IniDoc} {sect key sect' key' : Text}
    (same : SamePair sect key sect' key') : lastLive doc sect key = lastLive doc sect' key' := by
  unfold lastLive
  simp only [IniLine.declares_congr same]

namespace Sources

variable {docs : Sources} {forced : List (Text × Text)} {m : Edits} {sect key : Text}

theorem changedByUser_iff :
    docs.changedByUser sect key ↔ liveIn docs.user sect key ≠ liveIn docs.base sect key := by
  unfold changedByUser
  dsimp only
  rw [effectiveOf_present, effectiveOf_present, effectiveOf_value, effectiveOf_value]
  cases liveIn docs.user sect key <;> cases liveIn docs.base sect key <;> simp

theorem mergeKey_same (known : (effectiveOf docs.next sect key).known = true)
    (same : liveIn docs.user sect key = liveIn docs.base sect key) : ∃ report,
      docs.mergeKey forced m (sect, key) = { m with report := report } := by
  unfold mergeKey
  dsimp only
  rw [if_pos known]
  split
  · exact ⟨m.report, rfl⟩
  unfold mergeKnown
  dsimp only
  split
  · exact ⟨_, rfl⟩
  rw [if_neg fun changed => changedByUser_iff.mp changed same]
  split
  · exact ⟨_, rfl⟩
  · exact ⟨m.report, rfl⟩

theorem mergeKey_unlive (known : (effectiveOf docs.next sect key).known = true)
    (unforced : keyId (sect, key) ∉ forced.map fun f => lower f.1)
    (unlive : liveIn docs.user sect key = none) (changed : liveIn docs.base sect key ≠ none) :
    ∃ report, docs.mergeKey forced m (sect, key) =
      match lastLive docs.next sect key with
      | none => { m with report := report }
      | some k =>
        { m.replace k (Ini.commentOut (docs.next.getD k {}).text) with report := report } := by
  have absent : (effectiveOf docs.user sect key).present = false := by
    rw [effectiveOf_present, unlive]
    rfl
  unfold keyId at unforced
  unfold mergeKey
  rw [if_neg unforced, if_pos known]
  unfold mergeKnown
  dsimp only
  rw [absent, if_neg (by simp), if_pos (changedByUser_iff.mpr (by rw [unlive]; exact changed.symm))]
  unfold mergeChanged
  dsimp only
  rw [absent, if_neg (by simp)]
  cases lastLive docs.next sect key with
  | none => exact ⟨m.report, rfl⟩
  | some k => exact ⟨_, rfl⟩

end Sources

/-! ### All visits -/

section

variable {next user : Text} {base : Option Text} {forced : List (Text × Text)}
variable {sect key : Text} {m : Edits} {table : Nat → Option Text}

/-- A setting of the new file that nobody sets to another value: it is not forced,
and the user's file has it as the base has it, or not live. -/
structure Unset (docs : Sources) (forced : List (Text × Text)) (sect key : Text) : Prop where
  known : (effectiveOf docs.next sect key).known = true
  unforced : keyId (sect, key) ∉ forced.map fun f => lower f.1
  unset : liveIn docs.user sect key = none ∨
    liveIn docs.user sect key = liveIn docs.base sect key

theorem Unset.congr {docs : Sources} {sect' key' : Text} (unset : Unset docs forced sect key)
    (same : SamePair sect' key' sect key) : Unset docs forced sect' key' := by
  obtain ⟨known, unforced, unset⟩ := unset
  refine ⟨?_, ?_, ?_⟩
  · rw [effectiveOf_congr same]
    exact known
  · rw [keyId_congr same]
    exact unforced
  · rw [liveIn_congr same, liveIn_congr same]
    exact unset

theorem offLine_congr {docs : Sources} {sect' key' : Text} (same : SamePair sect' key' sect key) :
    docs.offLine sect' key' = docs.offLine sect key := by
  unfold Sources.offLine
  rw [liveIn_congr same, liveIn_congr same, lastLive_congr same]

theorem Told.own_visit (readable : Readable (iniParse next)) {sk : Text × Text}
    (member : sk ∈ userKeys (iniParse user) (iniParse (base.getD next)) base.isSome)
    (unset : Unset (readSources next user base) forced sect key) (same : SamePair sk.1 sk.2 sect key)
    (told : Told (iniParse next) sect key m table) :
    Told (iniParse next) sect key ((readSources next user base).mergeKey forced m sk)
      (commentedAt (iniParse next) table ((readSources next user base).offLine sect key)) := by
  obtain ⟨_, _, edit, -⟩ := @visit_edit next user base forced sk member m
  have keyed := edit.keyed readable.read readable.laid told.keyed
  have top := edit.topPlain readable.read readable.head told.top
  obtain ⟨known, unforced, unset⟩ := unset.congr same
  rw [← offLine_congr same]
  by_cases off : liveIn (readSources next user base).user sk.1 sk.2 = none ∧
      liveIn (readSources next user base).base sk.1 sk.2 ≠ none
  · obtain ⟨report, visit⟩ := @Sources.mergeKey_unlive (readSources next user base) forced m _ _
      known unforced off.1 off.2
    unfold Sources.offLine
    rw [if_pos off]
    rw [visit] at keyed top ⊢
    cases last : lastLive (readSources next user base).next sk.1 sk.2 with
    | none =>
      rw [last] at keyed top
      exact told.past (.silent told.keyed told.top report)
    | some k =>
      rw [last] at keyed top
      exact told.replace keyed top
  · have agree : liveIn (readSources next user base).user sk.1 sk.2 =
        liveIn (readSources next user base).base sk.1 sk.2 := by
      rcases unset with unlive | agree
      · rw [unlive]
        by_contra changed
        exact off ⟨unlive, fun h => changed h.symm⟩
      · exact agree
    obtain ⟨report, visit⟩ := @Sources.mergeKey_same (readSources next user base) forced m _ _
      known agree
    unfold Sources.offLine
    rw [if_neg off, visit]
    exact told.past (.silent told.keyed told.top report)

theorem Told.other_visit (readable : Readable (iniParse next)) {sk : Text × Text}
    (member : sk ∈ userKeys (iniParse user) (iniParse (base.getD next)) base.isSome)
    (other : ¬SamePair sk.1 sk.2 sect key)
    (unfollowed : ∀ move, (readSources next user base).Follows forced sk move →
      ¬SamePair move.sect move.key sect key)
    (told : Told (iniParse next) sect key m table) :
    Told (iniParse next) sect key ((readSources next user base).mergeKey forced m sk) table := by
  obtain ⟨sect', key', edit, own | ⟨move, follows, rfl, rfl⟩⟩ :=
    @visit_edit next user base forced sk member m
  · refine told.past (edit.past readable (fun same => other ?_) told.keyed told.top)
    exact ⟨own.1.symm.trans same.1, own.2.symm.trans same.2⟩
  · exact told.past (edit.past readable (unfollowed move follows) told.keyed told.top)

theorem Told.visits (readable : Readable (iniParse next)) {keys : List (Text × Text)}
    (inside : keys ⊆ userKeys (iniParse user) (iniParse (base.getD next)) base.isSome)
    (unset : Unset (readSources next user base) forced sect key)
    (unfollowed : ∀ sk ∈ keys, ∀ move, (readSources next user base).Follows forced sk move →
      ¬SamePair move.sect move.key sect key)
    (told : Told (iniParse next) sect key m table) :
    Told (iniParse next) sect key (keys.foldl ((readSources next user base).mergeKey forced) m)
      (if ∃ sk ∈ keys, SamePair sk.1 sk.2 sect key then
        commentedAt (iniParse next) table ((readSources next user base).offLine sect key)
      else table) := by
  induction keys generalizing m table with
  | nil => simpa using told
  | cons sk keys ih =>
    obtain ⟨here, later⟩ := List.cons_subset.mp inside
    have unfollowed' := fun sk member => unfollowed sk (List.mem_cons_of_mem _ member)
    rw [List.foldl_cons]
    by_cases own : SamePair sk.1 sk.2 sect key
    · have rest := ih later unfollowed' (told.own_visit readable here unset own)
      rw [commentedAt_twice, ite_self] at rest
      rw [if_pos ⟨sk, List.mem_cons_self, own⟩]
      exact rest
    · have rest := ih later unfollowed' (told.other_visit readable here own
        (unfollowed sk List.mem_cons_self))
      simpa only [List.exists_mem_cons_iff, own, false_or] using rest

theorem Told.forces (user : Text) (base : Option Text) (tidy : Tidy (iniParse next) forced)
    (unforced : keyId (sect, key) ∉ forced.map fun f => lower f.1)
    (told : Told (iniParse next) sect key m table) :
    Told (iniParse next) sect key (forced.foldl (readSources next user base).forceKey m) table :=
  told.past (@forces_past next user base forced _ _ tidy (tidy.unforced unforced) _ told.keyed
    told.top)

end

/-! ### The shipped values arrive -/

def Followed (next user : Text) (base : Option Text) (forced : List (Text × Text))
    (sect key : Text) : Prop :=
  ∃ sk ∈ userKeys (iniParse user) (iniParse (base.getD next)) base.isSome, ∃ move,
    (readSources next user base).Follows forced sk move ∧ SamePair move.sect move.key sect key

theorem unfollowed_of_known {next user : Text} {base : Option Text} {forced : List (Text × Text)}
    {sect key : Text}
    (known : ∀ sk ∈ userKeys (iniParse user) (iniParse (base.getD next)) base.isSome,
      (effectiveOf (iniParse next) sk.1 sk.2).known = true) :
    ¬Followed next user base forced sect key := by
  rintro ⟨sk, member, move, follows, -⟩
  cases follows.unknown.symm.trans (known sk member)

def ReadsAs (text text' sect key : Text) : Prop :=
  ∀ fallback,
    iniValue text (dottedName sect key) fallback = iniValue text' (dottedName sect key) fallback

theorem readsAs_of_live {text text' sect key : Text} (undotted : Undotted sect key)
    (live : liveIn (iniParse text) sect key = liveIn (iniParse text') sect key) :
    ReadsAs text text' sect key := by
  intro fallback
  rw [iniValue_eq, iniValue_eq, splitDotted_dottedName undotted, live]

/-- A setting of the new file that is not forced, to which no rename is followed, and
that the user's file has as the base has it, reads as the new file ships it. -/
theorem mergeIni_ships_untouched (next user : Text) (base : Option Text)
    (forced : List (Text × Text)) (sect key : Text)
    (terminated : ∀ last, (iniParse next).getLast? = some last → last.eol ≠ [])
    (head : ∀ line, (iniParse next).head? = some line →
      ¬byteOrderMark <+: line.text ∧ ¬byteOrderMark <+: line.key)
    (writes : ∀ f ∈ forced, ForcedOk f)
    (declared : ∃ line ∈ iniParse next, line.declares sect key) (undotted : Undotted sect key)
    (unforced : keyId (sect, key) ∉ forced.map fun f => lower f.1)
    (unfollowed : ¬Followed next user base forced sect key)
    (same : liveIn (iniParse user) sect key = liveIn (iniParse (base.getD next)) sect key) :
    ReadsAs (mergeIni next user base forced).1 next sect key := by
  have tidy : Tidy (iniParse next) forced :=
    ⟨head, writes, fun last isLast bare => absurd bare (terminated last isLast)⟩
  have unset : Unset (readSources next user base) forced sect key :=
    ⟨effectiveOf_known.mpr declared, unforced, .inr same⟩
  have visits := (Told.start { twoWay := !base.isSome }).visits tidy.readable
    (List.Subset.refl _) unset fun sk member move follows here =>
      unfollowed ⟨sk, member, move, follows, here⟩
  have quiet : (readSources next user base).offLine sect key = none := by
    refine if_neg fun off => off.2 ?_
    rw [← off.1]
    exact same.symm
  rw [quiet] at visits
  simp only [commentedAt, ite_self] at visits
  have tells : Tells (iniParse next) ((readSources next user base).edits forced) sect key
      (liveIn (iniParse next) sect key) := (visits.forces user base tidy unforced).tells_own
  exact readsAs_of_live undotted (tells.merged tidy fun last isLast bare _ _ =>
    absurd bare (terminated last isLast))

theorem mergeIni_ships_changed_default :
    ReadsAs (mergeIni "[a]\nk = 1\n".toList "[a]\nk = 2\n".toList (some "[a]\nk = 2\n".toList)
      [("a.f".toList, "7".toList)]).1 "[a]\nk = 1\n".toList "a".toList "k".toList := by
  have last : (iniParse "[a]\nk = 1\n".toList).getLast?.map (·.eol) = some ['\n'] := by
    decide +kernel
  refine mergeIni_ships_untouched _ _ _ _ _ _ ?_ tidy_example.head tidy_example.writes
    (effectiveOf_known.mp (by decide +kernel)) (by decide) (by decide +kernel)
    (unfollowed_of_known (by decide +kernel)) rfl
  intro line here bare
  rw [here, Option.map_some, bare] at last
  cases last

structure LeftAlone (next user base : Text) (forced : List (Text × Text)) (sect key : Text) :
    Prop where
  ended : (iniParse next).getLast?.map (·.eol) = some ['\n']
  declared : (effectiveOf (iniParse next) sect key).known = true
  unforced : keyId (sect, key) ∉ forced.map fun f => lower f.1
  unfollowed : ¬Followed next user (some base) forced sect key
  same : liveIn (iniParse user) sect key = liveIn (iniParse base) sect key

/-- A forced value of two lines sets two settings; a name with a dot in its section is
read as another setting, which the user changed. -/
theorem mergeIni_forced_line_break :
    (∃ next user : Text, ∃ forced : List (Text × Text), ∃ sect key : Text,
      LeftAlone next user next forced sect key ∧
      ¬ReadsAs (mergeIni next user (some next) forced).1 next sect key) ∧
    ∃ next user base sect key : Text, LeftAlone next user base [] sect key ∧
      ¬ReadsAs (mergeIni next user (some base) []).1 next sect key := by
  refine ⟨⟨"[a]\nk = 1\nf = 1\n".toList, "[a]\nk = 1\nf = 1\n".toList,
    [("a.f".toList, "7\nk = 9".toList)], "a".toList, "k".toList,
    ⟨by decide +kernel, by decide +kernel, by decide +kernel,
      unfollowed_of_known (by decide +kernel), rfl⟩, fun reads => ?_⟩,
    ⟨"[a.b]\nc = 1\n[a]\nb.c = 1\n".toList, "[a]\nb.c = 2\n".toList, "[a]\nb.c = 1\n".toList,
    "a.b".toList, "c".toList, ⟨by decide +kernel, by decide +kernel, by decide +kernel,
      unfollowed_of_known (by decide +kernel), by decide +kernel⟩, fun reads => ?_⟩⟩
  · have read := reads []
    revert read
    decide +kernel
  · have read := reads []
    revert read
    decide +kernel

end EdvrPatch.Ini
