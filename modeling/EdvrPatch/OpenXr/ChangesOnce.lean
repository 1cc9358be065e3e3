import EdvrPatch.OpenXr.ReferenceChanges

/-! Reference-space changes are counted once, and in whichever order they arrive between
two frames. -/
namespace EdvrPatch.OpenXr.ReferenceChanges

variable {Pose : Type}

inductive Call (Pose : Type) where
  | begin (session : UInt64)
  | note (event : ReferenceSpaceChange Pose)
  | advance (target : Int)
  | clear

structure Outcome where
  answer : Option Nat
  applied : Option (List Int)
  epoch : UInt64
  crosses : Int → Int → Bool

/-- The object with the LOCAL changes that it took and those that it applied since it
began. -/
structure Ledger where
  changes : ReferenceChanges := {}
  noted : List Int := []
  applied : List Int := []
  deriving DecidableEq

def Foreign (r : ReferenceChanges) (e : ReferenceSpaceChange Pose) : Prop :=
  e.session ≠ r.session ∨ e.referenceSpaceType ≠ XR_REFERENCE_SPACE_TYPE_LOCAL

def Refused (poseValid : Pose → Bool) (e : ReferenceSpaceChange Pose) : Prop :=
  Malformed e ∨ e.poseValid = XR_TRUE ∧ poseValid e.poseInPreviousSpace = false

/-- The event is a well-formed change of LOCAL in the object's own session, and fewer than
`kCapacity` of the changes before it wait to be applied. -/
def Ledger.Takes (poseValid : Pose → Bool) (l : Ledger) (e : ReferenceSpaceChange Pose) : Prop :=
  l.changes.active = true ∧ ¬Foreign l.changes e ∧ ¬Refused poseValid e ∧
    l.noted.length < l.applied.length + kCapacity

instance (poseValid : Pose → Bool) (l : Ledger) (e : ReferenceSpaceChange Pose) :
    Decidable (l.Takes poseValid e) :=
  inferInstanceAs (Decidable (_ ∧ ¬(_ ∨ _) ∧ ¬(_ ∨ _) ∧ _))

variable (poseValid : Pose → Bool)

def Ledger.step (l : Ledger) : Call Pose → Ledger
  | .begin session =>
    let (began, changes) := l.changes.begin session
    if began then { changes } else { l with changes }
  | .note e =>
    { l with
      changes := (l.changes.note poseValid e).2
      noted := if l.Takes poseValid e then l.noted ++ [e.changeTime] else l.noted }
  | .advance target =>
    let (answer, changes) := l.changes.advance target
    { l with
      changes
      applied := if answer.isSome then l.applied ++ l.changes.reached target else l.applied }
  | .clear => { l with changes := ReferenceChanges.clear }

def Ledger.run (l : Ledger) (calls : List (Call Pose)) : Ledger :=
  calls.foldl (Ledger.step poseValid) l

def step (r : ReferenceChanges) : Call Pose → ReferenceChanges
  | .begin session => (r.begin session).2
  | .note e => (r.note poseValid e).2
  | .advance target => (r.advance target).2
  | .clear => clear

def outcomes : ReferenceChanges → List (Call Pose) → List Outcome
  | _, [] => []
  | r, call :: calls =>
    match call with
    | .advance target =>
      { answer := (r.advance target).1
        applied := (r.advance target).1.map fun _ => r.reached target
        epoch := (r.advance target).2.epochNow
        crosses := (r.advance target).2.crosses } :: outcomes (r.step poseValid call) calls
    | _ => outcomes (r.step poseValid call) calls

inductive Reordered : List (Call Pose) → List (Call Pose) → Prop
  | nil : Reordered [] []
  | cons (call : Call Pose) {calls calls' : List (Call Pose)} (rest : Reordered calls calls') :
    Reordered (call :: calls) (call :: calls')
  | swap (a b : ReferenceSpaceChange Pose) (calls : List (Call Pose)) :
    Reordered (.note a :: .note b :: calls) (.note b :: .note a :: calls)
  | trans {first second third : List (Call Pose)} (left : Reordered first second)
    (right : Reordered second third) : Reordered first third

/-! ### Every state -/

structure Valid (r : ReferenceChanges) : Prop where
  sorted : r.pending.Pairwise (· ≤ ·)
  fits : r.pending.length ≤ kCapacity

theorem Valid.clear : Valid clear where
  sorted := List.Pairwise.nil
  fits := Nat.zero_le _

section

variable {poseValid} {r : ReferenceChanges} {e : ReferenceSpaceChange Pose} {target : Int}

theorem note_cases (poseValid : Pose → Bool) (e : ReferenceSpaceChange Pose) (active : r.active = true) :
    Foreign r e ∧ r.note poseValid e = (true, r) ∨
      ¬Foreign r e ∧ (Refused poseValid e ∨ r.pending.length = kCapacity) ∧
        r.note poseValid e = (false, ReferenceChanges.clear) ∨
      ¬Foreign r e ∧ ¬Refused poseValid e ∧ r.pending.length ≠ kCapacity ∧
        r.note poseValid e = (true, { r with pending := inserted e.changeTime r.pending }) := by
  unfold note
  rw [active, if_neg (by decide)]
  split
  · rename_i foreign
    exact .inl ⟨foreign, rfl⟩
  rename_i own
  split
  · rename_i malformed
    exact .inr (.inl ⟨own, .inl (.inl malformed), rfl⟩)
  rename_i formed
  split
  · rename_i badPose
    exact .inr (.inl ⟨own, .inl (.inr (by simpa using badPose)), rfl⟩)
  rename_i posed
  split
  · rename_i full
    exact .inr (.inl ⟨own, .inr full, rfl⟩)
  · rename_i room
    refine .inr (.inr ⟨own, fun refused => ?_, room, rfl⟩)
    exact refused.elim formed fun badPose => posed (by simpa using badPose)

theorem note_inactive (idle : r.active = false) : r.note poseValid e = (false, r) := by
  unfold note
  rw [idle]
  rfl

theorem advance_cases (r : ReferenceChanges) (target : Int) :
    r.advance target = (none, ReferenceChanges.clear) ∨
      r.active = true ∧ (r.advanced = true → r.lastTarget ≤ target) ∧
        (r.reached target).length ≤ (0xFFFFFFFFFFFFFFFF - r.epoch).toNat ∧
        r.advance target = (some (r.reached target).length,
          { r with
            epoch := r.epoch + UInt64.ofNat (r.reached target).length
            pending := r.pending.drop (r.reached target).length
            lastTarget := target
            advanced := true }) := by
  unfold advance
  split
  · exact .inl rfl
  rename_i forward
  obtain ⟨active, order⟩ := not_or.mp forward
  dsimp only
  split
  · exact .inl rfl
  rename_i room
  refine .inr ⟨by simpa using active, fun was => ?_, by omega, rfl⟩
  have := not_and.mp order was
  omega

theorem Valid.note (valid : Valid r) : Valid (r.note poseValid e).2 := by
  cases active : r.active with
  | false =>
    rw [note_inactive active]
    exact valid
  | true =>
    rcases note_cases poseValid e active with ⟨-, same⟩ | ⟨-, -, bad⟩ | ⟨-, -, room, taken⟩
    · rw [same]
      exact valid
    · rw [bad]
      exact .clear
    · rw [taken]
      refine ⟨sorted_inserted _ valid.sorted, ?_⟩
      have length := (perm_inserted e.changeTime r.pending).length_eq
      have fits := valid.fits
      rw [List.length_cons] at length
      change (inserted e.changeTime r.pending).length ≤ kCapacity
      omega

theorem Valid.advance (valid : Valid r) : Valid (r.advance target).2 := by
  rcases advance_cases r target with retired | ⟨-, -, -, done⟩
  · rw [retired]
    exact .clear
  · rw [done]
    refine ⟨valid.sorted.sublist (List.drop_sublist _ _), ?_⟩
    exact (List.drop_sublist _ _).length_le.trans valid.fits

theorem Valid.step (valid : Valid r) (call : Call Pose) : Valid (r.step poseValid call) := by
  cases call with
  | begin session =>
    change Valid (r.begin session).2
    unfold ReferenceChanges.begin
    split
    · exact valid
    · exact ⟨List.Pairwise.nil, Nat.zero_le _⟩
  | note e => exact valid.note
  | advance target => exact valid.advance
  | clear => exact .clear

/-! ### The order of arrival -/

theorem inserted_comm (a b : Int) {pending : List Int} (sorted : pending.Pairwise (· ≤ ·)) :
    inserted a (inserted b pending) = inserted b (inserted a pending) := by
  have perm : (inserted a (inserted b pending)).Perm (inserted b (inserted a pending)) :=
    (perm_inserted a _).trans (((perm_inserted b pending).cons a).trans
      ((List.Perm.swap b a pending).trans (((perm_inserted a pending).cons b).symm.trans
        (perm_inserted b _).symm)))
  exact perm.eq_of_pairwise' (sorted_inserted a (sorted_inserted b sorted))
    (sorted_inserted b (sorted_inserted a sorted))

variable {a b : ReferenceSpaceChange Pose}

theorem note_leaves (poseValid : Pose → Bool) (e : ReferenceSpaceChange Pose) (active : r.active = true) :
    (r.note poseValid e).2 = ReferenceChanges.clear ∨
      ∃ pending, (r.note poseValid e).2 = { r with pending } := by
  rcases note_cases poseValid e active with ⟨-, same⟩ | ⟨-, -, bad⟩ | ⟨-, -, -, taken⟩
  · exact .inr ⟨r.pending, by rw [same]⟩
  · exact .inl (by rw [bad])
  · exact .inr ⟨_, by rw [taken]⟩

theorem note_clear (poseValid : Pose → Bool) (e : ReferenceSpaceChange Pose) :
    (ReferenceChanges.clear.note poseValid e).2 = ReferenceChanges.clear :=
  rfl

theorem note_after_note (active : r.active = true) (apart : Foreign r a ∨ Refused poseValid a) :
    ((r.note poseValid b).2.note poseValid a).2 = ((r.note poseValid a).2.note poseValid b).2 := by
  rcases note_cases poseValid a active with ⟨foreign, same⟩ | ⟨own, -, bad⟩ | ⟨own, formed, -, -⟩
  · rw [same]
    rcases note_leaves poseValid b active with retired | ⟨pending, left⟩
    · rw [retired, note_clear]
    · rw [left]
      rcases note_cases poseValid a (r := { r with pending }) active with
        ⟨-, same⟩ | ⟨own, -⟩ | ⟨own, -⟩
      · rw [same]
      · exact absurd foreign own
      · exact absurd foreign own
  · rw [bad, note_clear]
    have refused := apart.resolve_left own
    rcases note_leaves poseValid b active with retired | ⟨pending, left⟩
    · rw [retired, note_clear]
    · rw [left]
      rcases note_cases poseValid a (r := { r with pending }) active with
        ⟨foreign, -⟩ | ⟨-, -, bad⟩ | ⟨-, formed, -⟩
      · exact absurd foreign own
      · rw [bad]
      · exact absurd refused formed
  · exact absurd apart (not_or.mpr ⟨own, formed⟩)

theorem note_own (active : r.active = true) (own : ¬(Foreign r e ∨ Refused poseValid e)) :
    (r.note poseValid e).2 =
      if r.pending.length = kCapacity then ReferenceChanges.clear
      else { r with pending := inserted e.changeTime r.pending } := by
  obtain ⟨mine, formed⟩ := not_or.mp own
  rcases note_cases poseValid e active with ⟨foreign, -⟩ | ⟨-, why, bad⟩ | ⟨-, -, room, taken⟩
  · exact absurd foreign mine
  · rw [bad, if_pos (why.resolve_left formed)]
  · rw [taken, if_neg room]

theorem note_comm (valid : Valid r) :
    ((r.note poseValid a).2.note poseValid b).2 = ((r.note poseValid b).2.note poseValid a).2 := by
  cases active : r.active with
  | false =>
    rw [note_inactive active, note_inactive active, note_inactive active]
  | true =>
    by_cases apartA : Foreign r a ∨ Refused poseValid a
    · exact (note_after_note active apartA).symm
    by_cases apartB : Foreign r b ∨ Refused poseValid b
    · exact note_after_note active apartB
    rw [note_own active apartA, note_own active apartB]
    by_cases full : r.pending.length = kCapacity
    · rw [if_pos full, if_pos full, note_clear, note_clear]
    · rw [if_neg full, if_neg full,
        note_own (r := { r with pending := inserted a.changeTime r.pending }) active apartB,
        note_own (r := { r with pending := inserted b.changeTime r.pending }) active apartA]
      rw [(perm_inserted a.changeTime r.pending).length_eq,
        (perm_inserted b.changeTime r.pending).length_eq, List.length_cons, List.length_cons,
        inserted_comm b.changeTime a.changeTime valid.sorted]

theorem Reordered.same {calls calls' : List (Call Pose)} (reordered : Reordered calls calls')
    (valid : Valid r) :
    outcomes poseValid r calls = outcomes poseValid r calls' ∧
      calls.foldl (ReferenceChanges.step poseValid) r = calls'.foldl (ReferenceChanges.step poseValid) r := by
  induction reordered generalizing r with
  | nil => exact ⟨rfl, rfl⟩
  | cons call _ ih =>
    have next : Valid (r.step poseValid call) := valid.step call
    obtain ⟨seen, after⟩ := ih next
    refine ⟨?_, after⟩
    cases call with
    | advance target => exact congrArg (_ :: ·) seen
    | begin session => exact seen
    | note e => exact seen
    | clear => exact seen
  | swap a b calls =>
    refine ⟨?_, ?_⟩
    · change outcomes poseValid ((r.note poseValid a).2.note poseValid b).2 calls =
        outcomes poseValid ((r.note poseValid b).2.note poseValid a).2 calls
      rw [note_comm valid]
    · change calls.foldl _ ((r.note poseValid a).2.note poseValid b).2 =
        calls.foldl _ ((r.note poseValid b).2.note poseValid a).2
      rw [note_comm valid]
  | trans _ _ left right =>
    obtain ⟨seenLeft, left⟩ := left valid
    obtain ⟨seenRight, right⟩ := right valid
    exact ⟨seenLeft.trans seenRight, left.trans right⟩

/-! ### Every change once -/

/-- The changes that an active object took were applied or are pending, and it counted
those that it applied. -/
structure Ledger.Balanced (l : Ledger) : Prop where
  valid : Valid l.changes
  account : l.changes.active = true → l.noted.Perm (l.applied ++ l.changes.pending)
  counts : l.changes.active = true → l.changes.epoch.toNat = 1 + l.applied.length
  due : l.changes.active = true → ∀ time ∈ l.applied, l.changes.advanced = true ∧ time ≤ l.changes.lastTarget

theorem Ledger.Balanced.retired (noted applied : List Int) :
    Ledger.Balanced { changes := ReferenceChanges.clear, noted, applied } where
  valid := .clear
  account active := absurd active Bool.false_ne_true
  counts active := absurd active Bool.false_ne_true
  due active := absurd active Bool.false_ne_true

theorem reached_append_drop (r : ReferenceChanges) (target : Int) :
    r.reached target ++ r.pending.drop (r.reached target).length = r.pending :=
  List.prefix_iff_eq_append.mp (List.takeWhile_prefix _)

variable {l : Ledger}

theorem Ledger.Balanced.note (balanced : l.Balanced) (e : ReferenceSpaceChange Pose) :
    (l.step poseValid (.note e)).Balanced := by
  have valid : Valid (l.changes.note poseValid e).2 := balanced.valid.note
  cases active : l.changes.active with
  | false =>
    have same : (l.step poseValid (.note e)).changes = l.changes := by
      change (l.changes.note poseValid e).2 = _
      rw [note_inactive active]
    refine ⟨valid, fun now => ?_, fun now => ?_, fun now => ?_⟩ <;>
    · rw [same, active] at now
      cases now
  | true =>
    unfold Ledger.step
    dsimp only
    rcases note_cases poseValid e active with ⟨foreign, same⟩ | ⟨-, -, bad⟩ | ⟨own, formed, room, taken⟩
    · have passed : ¬l.Takes poseValid e := fun takes => takes.2.1 foreign
      rw [same, if_neg passed]
      exact balanced
    · rw [bad]
      exact .retired _ _
    · have length := (balanced.account active).length_eq
      rw [List.length_append] at length
      have fits := balanced.valid.fits
      have takes : l.Takes poseValid e := ⟨active, own, formed, by omega⟩
      rw [taken] at valid ⊢
      rw [if_pos takes]
      refine ⟨valid, fun _ => ?_, balanced.counts, balanced.due⟩
      -- the time that is noted last stands in its place among the pending ones
      calc List.Perm (l.noted ++ [e.changeTime]) (e.changeTime :: l.noted) :=
            List.perm_append_singleton _ _
        List.Perm _ (e.changeTime :: (l.applied ++ l.changes.pending)) :=
            (balanced.account active).cons _
        List.Perm _ (l.applied ++ e.changeTime :: l.changes.pending) := List.perm_middle.symm
        List.Perm _ (l.applied ++ inserted e.changeTime l.changes.pending) :=
            (perm_inserted e.changeTime l.changes.pending).symm.append_left l.applied

theorem Ledger.Balanced.advance (balanced : l.Balanced) (target : Int) :
    (l.step poseValid (.advance target)).Balanced := by
  have valid : Valid (l.changes.advance target).2 := balanced.valid.advance
  unfold Ledger.step
  dsimp only
  rcases advance_cases l.changes target with retired | ⟨active, forward, room, done⟩
  · rw [retired]
    exact .retired _ _
  · rw [done] at valid ⊢
    simp only [Option.isSome_some, if_true]
    have counts := balanced.counts active
    refine ⟨valid, fun _ => ?_, fun _ => ?_, fun _ time member => ⟨rfl, ?_⟩⟩
    · rw [List.append_assoc, reached_append_drop]
      exact balanced.account active
    · have small := l.changes.epoch.toNat_lt
      have largest : UInt64.toNat 0xFFFFFFFFFFFFFFFF = 2 ^ 64 - 1 := rfl
      rw [UInt64.toNat_sub_of_le _ _ (by rw [UInt64.le_iff_toNat_le]; omega), largest] at room
      rw [List.length_append, UInt64.toNat_add, UInt64.toNat_ofNat']
      omega
    · rcases List.mem_append.mp member with old | new
      · obtain ⟨was, before⟩ := balanced.due active time old
        exact before.trans (forward was)
      · exact of_decide_eq_true (List.mem_takeWhile_imp (p := (· ≤ target)) new)

theorem Ledger.Balanced.step (balanced : l.Balanced) (call : Call Pose) :
    (l.step poseValid call).Balanced := by
  cases call with
  | begin session =>
    unfold Ledger.step ReferenceChanges.begin
    dsimp only
    split
    · exact balanced
    · exact ⟨⟨List.Pairwise.nil, Nat.zero_le _⟩, fun _ => List.Perm.nil, fun _ => rfl, fun _ _ none => by cases none⟩
  | note e => exact balanced.note e
  | advance target => exact balanced.advance target
  | clear => exact .retired _ _

theorem Ledger.Balanced.run (balanced : l.Balanced) (calls : List (Call Pose)) :
    (l.run poseValid calls).Balanced :=
  List.foldlRecOn calls _ balanced fun _ held call _ => held.step call

theorem Ledger.step_changes (l : Ledger) (call : Call Pose) :
    (l.step poseValid call).changes = l.changes.step poseValid call := by
  cases call with
  | begin session =>
    unfold Ledger.step
    dsimp only
    split <;> rfl
  | note e => rfl
  | advance target => rfl
  | clear => rfl

theorem Ledger.run_changes (l : Ledger) (calls : List (Call Pose)) :
    (l.run poseValid calls).changes = calls.foldl (ReferenceChanges.step poseValid) l.changes := by
  induction calls generalizing l with
  | nil => rfl
  | cons call calls ih =>
    change ((l.step poseValid call).run poseValid calls).changes = _
    rw [ih, step_changes]
    rfl

theorem perm_filter {times early late : List Int} (perm : times.Perm (early ++ late))
    (before : ∀ time ∈ early, time ≤ target) (after : ∀ time ∈ late, target < time) :
    early.Perm (times.filter (· ≤ target)) ∧ late.Perm (times.filter (target < ·)) := by
  have keepEarly : early.filter (· ≤ target) = early :=
    List.filter_eq_self.mpr fun time member => decide_eq_true (before time member)
  have dropLate : late.filter (· ≤ target) = [] :=
    List.filter_eq_nil_iff.mpr fun time member => by simpa using after time member
  have dropEarly : early.filter (target < ·) = [] :=
    List.filter_eq_nil_iff.mpr fun time member => by simpa using before time member
  have keepLate : late.filter (target < ·) = late :=
    List.filter_eq_self.mpr fun time member => decide_eq_true (after time member)
  have first := perm.filter (· ≤ target)
  have second := perm.filter (target < ·)
  rw [List.filter_append, keepEarly, dropLate, List.append_nil] at first
  rw [List.filter_append, dropEarly, keepLate, List.nil_append] at second
  exact ⟨first.symm, second.symm⟩

/-- After an advance that the object answers, what it applied is what it noted up to the
target, and the rest is pending. -/
theorem Ledger.Balanced.split (balanced : l.Balanced) {target : Int}
    (active : (l.step poseValid (.advance target)).changes.active = true) :
    (l.step poseValid (.advance target)).applied.Perm (l.noted.filter (· ≤ target)) ∧
      (l.step poseValid (.advance target)).changes.pending.Perm (l.noted.filter (target < ·)) := by
  have next : (l.step poseValid (.advance target)).Balanced := balanced.advance target
  have account := next.account active
  have due := next.due active
  unfold Ledger.step at account due active ⊢
  dsimp only at account due active ⊢
  rcases advance_cases l.changes target with retired | ⟨was, -, -, done⟩
  · rw [retired] at active
    cases active
  rw [done] at account due ⊢
  simp only [Option.isSome_some, if_true] at account due ⊢
  have pending : l.changes.pending.drop (l.changes.reached target).length =
      l.changes.pending.filter (target < ·) := (reached_eq_filter balanced.valid.sorted).2
  have later : ∀ time ∈ l.changes.pending.drop (l.changes.reached target).length, target < time := by
    intro time member
    rw [pending] at member
    exact of_decide_eq_true (List.mem_filter.mp member).2
  exact perm_filter account (fun time member => (due time member).2) later

end

/-- The changes are kept in order, are told apart by no order of arrival, and each one that
is noted is applied once, by the first advance to reach it, while the object is active. -/
theorem changes_counted_once (poseValid : Pose → Bool) (calls : List (Call Pose)) :
    let l := Ledger.run poseValid {} calls
    l.changes.pending.Pairwise (· ≤ ·) ∧
      (∀ calls', Reordered calls calls' →
        outcomes poseValid {} calls = outcomes poseValid {} calls' ∧
          l.changes = (Ledger.run poseValid {} calls').changes) ∧
      (l.changes.active = true → l.noted.Perm (l.applied ++ l.changes.pending) ∧
        l.changes.epoch.toNat = 1 + l.applied.length) ∧
      ∀ target, (l.step poseValid (.advance target)).changes.active = true →
        (l.step poseValid (.advance target)).applied.Perm (l.noted.filter (· ≤ target)) ∧
          (l.step poseValid (.advance target)).changes.pending.Perm
            (l.noted.filter (target < ·)) := by
  have balanced : (Ledger.run poseValid {} calls).Balanced :=
    (Ledger.Balanced.retired [] []).run calls
  refine ⟨balanced.valid.sorted, fun calls' reordered => ?_, fun active => ?_, fun target => ?_⟩
  · have same : outcomes poseValid {} calls = outcomes poseValid {} calls' ∧ _ := reordered.same .clear
    obtain ⟨seen, after⟩ := same
    rw [Ledger.run_changes, Ledger.run_changes]
    exact ⟨seen, after⟩
  · exact ⟨balanced.account active, balanced.counts active⟩
  · exact balanced.split

def localChange (changeTime : Int) : ReferenceSpaceChange Unit :=
  ⟨XR_TYPE_EVENT_DATA_REFERENCE_SPACE_CHANGE_PENDING, 0, 1, XR_REFERENCE_SPACE_TYPE_LOCAL, changeTime, 0, ()⟩

/-- A target before the last one retires the object, and the change that was noted for
later is never applied. -/
theorem retired_before_applied :
    ¬∀ (calls : List (Call Unit)) (target : Int),
      let l := Ledger.run (fun _ => true) {} (.begin 1 :: calls)
      (l.step (fun _ : Unit => true) (.advance target)).applied.Perm
        (l.noted.filter (· ≤ target)) := by
  intro all
  have perm := all [.note (localChange 30), .advance 20, .advance 10] 40
  exact absurd perm.length_eq (by decide)

end EdvrPatch.OpenXr.ReferenceChanges
