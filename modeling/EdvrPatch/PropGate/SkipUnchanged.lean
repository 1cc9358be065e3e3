import EdvrPatch.PropGate.TableSound

/-! What a skip rests on: the last run of the collection read what this call has read,
nothing was invalidated since, and it was not long ago. -/
namespace EdvrPatch.PropGate

open Lib

def invalidations (g : Gate) : Event → Nat
  | .enable sched eval =>
    if !g.active ∧ sched = "installed" ∧ eval = "installed" then 2 else 0
  | .disable => if !g.active ∧ g.statusText = "not_run" then 0 else 1
  | .decide _ _ => 0
  | .noteReset => if g.active then 1 else 0
  | .notePresentFrame _ j =>
    if !g.active then 0
    else (if j.gameplay ∧ !g.lastGameplay then 1 else 0) +
      (if j.disembarks ≠ g.lastDisembarks then 1 else 0) +
      (if j.embarks ≠ g.lastEmbarks then 1 else 0) +
      (if j.inJumpTunnel ∧ !g.lastJumpTunnel then 1 else 0)

/-- Whether the gate is on, and what the journal said last while it was. -/
def heardStep (s : Bool × Journal) : Event → Bool × Journal
  | .enable sched eval =>
    if !s.1 ∧ sched = "installed" ∧ eval = "installed" then (true, ⟨false, 0, 0, false⟩) else s
  | .disable => (false, ⟨false, 0, 0, false⟩)
  | .notePresentFrame _ j => if s.1 then (true, j) else s
  | _ => s

def heard (events : List Event) : Bool × Journal :=
  events.foldl heardStep (false, ⟨false, 0, 0, false⟩)

def Gate.latches (g : Gate) : Bool × Journal :=
  (g.active, ⟨g.lastGameplay, g.lastDisembarks, g.lastEmbarks, g.lastJumpTunnel⟩)

def historyFrom (g : Gate) : List Event → List (Gate × Event)
  | [] => []
  | e :: rest => (g, e) :: historyFrom (g.step e) rest

def history (events : List Event) : List (Gate × Event) :=
  historyFrom {} events

def totalInvalidations (h : List (Gate × Event)) : Nat :=
  (h.map fun x => invalidations x.1 x.2).sum

def Event.presentFrame : Event → Option UInt32
  | .notePresentFrame presentFrame _ => some presentFrame
  | _ => none

def RunsFor (array : UInt64) (x : Gate × Event) : Prop :=
  ∃ m p, x.2 = .decide m p ∧ readArray m p = some array ∧ (x.1.decide m p).2 = .run

/-- The last run of the array, in frame `frame`, read these records, and nothing was
invalidated since. -/
def LastRun (h : List (Gate × Event)) (array : UInt64) (snap : List RecordSnap)
    (frame : UInt32) : Prop :=
  ∃ front g m p rest, h = front ++ (g, .decide m p) :: rest ∧ g.active = true ∧
    (g.decide m p).2 = .run ∧ readCollection m p = some (array, snap) ∧ g.frame = frame ∧
    ∀ x ∈ rest, invalidations x.1 x.2 = 0 ∧ ¬RunsFor array x

/-- What a call may be for the cache to stay true: the epochs do not come round, and no
job is run behind the back of an entry that counts. -/
structure Careful (before : List Event) (e : Event) : Prop where
  bounded : 1 + totalInvalidations (history (before ++ [e])) < 2 ^ 32
  keyed : ∀ m p array, e = .decide m p → (runAll before).active = true →
    readArray m p = some array → array ≠ 0 → readCollection m p = none →
    ∀ s, ((runAll before).table s).key = array →
      ((runAll before).table s).epoch ≠ (runAll before).epoch

theorem historyFrom_append (g : Gate) (events : List Event) (e : Event) :
    historyFrom g (events ++ [e]) = historyFrom g events ++ [(events.foldl Gate.step g, e)] := by
  induction events generalizing g with
  | nil => rfl
  | cons first events ih => rw [List.cons_append, historyFrom, ih, historyFrom]; rfl

theorem history_append (events : List Event) (e : Event) :
    history (events ++ [e]) = history events ++ [(runAll events, e)] :=
  historyFrom_append {} events e

theorem totalInvalidations_append (h : List (Gate × Event)) (g : Gate) (e : Event) :
    totalInvalidations (h ++ [(g, e)]) = totalInvalidations h + invalidations g e := by
  unfold totalInvalidations
  rw [List.map_append, List.sum_append]
  rfl

theorem LastRun.extend {h : List (Gate × Event)} {array : UInt64} {snap : List RecordSnap}
    {frame : UInt32} {g : Gate} {e : Event} (last : LastRun h array snap frame)
    (quiet : invalidations g e = 0) (other : ¬RunsFor array (g, e)) :
    LastRun (h ++ [(g, e)]) array snap frame := by
  obtain ⟨front, g', m, p, rest, split, active, run, read, same, since⟩ := last
  refine ⟨front, g', m, p, rest ++ [(g, e)], ?_, active, run, read, same, fun x member => ?_⟩
  · rw [split, List.append_assoc]
    rfl
  · rcases List.mem_append.mp member with before | here
    · exact since x before
    · rw [List.mem_singleton.mp here]
      exact ⟨quiet, other⟩

theorem notePresentFrame_epoch (g : Gate) (presentFrame : UInt32) (j : Journal) :
    (g.notePresentFrame presentFrame j).epoch =
      g.epoch + .ofNat (invalidations g (.notePresentFrame presentFrame j)) := by
  unfold Gate.notePresentFrame invalidations
  split
  · exact (UInt32.add_zero _).symm
  have ofNat_ite (c : Prop) [Decidable c] :
      UInt32.ofNat (if c then 1 else 0) = if c then 1 else 0 := by
    split <;> rfl
  simp only [UInt32.ofNat_add, ofNat_ite]
  unfold Gate.invalidateLocked
  grind

theorem decide_epoch (g : Gate) (m : Memory) (p : UInt64) :
    (g.decide m p).1.epoch = g.epoch ∧ (g.decide m p).1.frame = g.frame := by
  unfold Gate.decide
  split
  · exact ⟨rfl, rfl⟩
  split
  · exact ⟨rfl, rfl⟩
  rename_i array snap _
  have decided := decideLocked_decided g array snap
  generalize g.decideLocked array snap = answer at decided
  cases decided <;> exact ⟨rfl, rfl⟩

theorem step_epoch (g : Gate) (e : Event) :
    (g.step e).epoch = g.epoch + .ofNat (invalidations g e) := by
  cases e with
  | enable sched eval =>
    unfold Gate.step Gate.enable invalidations
    dsimp only
    by_cases installed : !g.active ∧ sched = "installed" ∧ eval = "installed"
    · obtain ⟨idle, rfl, rfl⟩ := installed
      rw [Bool.not_eq_true'] at idle
      simp [idle, Gate.clearLocked, Gate.invalidateLocked]
      exact UInt32.add_assoc _ _ _
    · rw [if_neg installed]
      grind
  | disable =>
    unfold Gate.step Gate.disable invalidations
    dsimp only
    split
    · exact (UInt32.add_zero _).symm
    · rfl
  | decide m p =>
    rw [Gate.step, (decide_epoch g m p).1]
    exact (UInt32.add_zero _).symm
  | noteReset =>
    unfold Gate.step Gate.noteReset invalidations
    cases g.active
    · exact (UInt32.add_zero _).symm
    · rfl
  | notePresentFrame presentFrame j => exact notePresentFrame_epoch g presentFrame j

theorem step_table (g : Gate) (e : Event) (other : ∀ m p, e ≠ .decide m p) :
    (g.step e).table = (fun _ => {}) ∧ (g.step e).frame = 0 ∨
      (g.step e).table = g.table ∧
        ((g.step e).frame = g.frame ∨ e.presentFrame = some (g.step e).frame) := by
  cases e with
  | enable sched eval =>
    unfold Gate.step Gate.enable
    grind [Gate.clearLocked, Gate.invalidateLocked]
  | disable =>
    unfold Gate.step Gate.disable
    grind [Gate.clearLocked]
  | decide m p => exact absurd rfl (other m p)
  | noteReset =>
    unfold Gate.step Gate.noteReset
    grind [Gate.invalidateLocked]
  | notePresentFrame presentFrame j =>
    refine .inr ⟨(notePresentFrame_table g presentFrame j).1, ?_⟩
    unfold Gate.step Gate.notePresentFrame Event.presentFrame
    grind [Gate.invalidateLocked]

def Stored (h : List (Gate × Event)) (e : CollectionEntry) : Prop :=
  ∃ snap : List RecordSnap, snap.length ≤ 16 ∧ e.count = .ofNat snap.length ∧
    e.records.take snap.length = snap ∧ LastRun h e.key snap e.lastRunFrame

structure Faithful (before : List Event) (g : Gate) : Prop where
  epoch : g.epoch.toNat = 1 + totalInvalidations (history before)
  aged : ∀ s, (g.table s).key ≠ 0 → (g.table s).epoch ≤ g.epoch
  clock : g.frame = 0 ∨ g.frame ∈ before.filterMap Event.presentFrame
  frames : ∀ s, (g.table s).key ≠ 0 → (g.table s).lastRunFrame ≤ g.frame
  stored : ∀ s, (g.table s).key ≠ 0 → (g.table s).epoch = g.epoch →
    Stored (history before) (g.table s)

theorem Stored.extend {h : List (Gate × Event)} {entry : CollectionEntry} {g : Gate} {e : Event}
    (stored : Stored h entry) (quiet : invalidations g e = 0)
    (other : ¬RunsFor entry.key (g, e)) : Stored (h ++ [(g, e)]) entry := by
  obtain ⟨snap, few, count, records, last⟩ := stored
  exact ⟨snap, few, count, records, last.extend quiet other⟩

section

variable {before : List Event} {e : Event}
  (faithful : Faithful before (runAll before)) (careful : Careful before e)

include faithful careful

theorem Faithful.epoch_step : ((runAll before).step e).epoch.toNat =
    (runAll before).epoch.toNat + invalidations (runAll before) e := by
  have bounded := careful.bounded
  rw [history_append, totalInvalidations_append] at bounded
  have epoch := faithful.epoch
  rw [step_epoch, UInt32.toNat_add, UInt32.toNat_ofNat']
  rw [Nat.add_mod_mod]
  exact Nat.mod_eq_of_lt (by omega)

theorem Faithful.epoch_le : (runAll before).epoch ≤ ((runAll before).step e).epoch := by
  rw [UInt32.le_iff_toNat_le, faithful.epoch_step careful]
  omega

theorem Faithful.counts {s : Slot} (held : ((runAll before).table s).key ≠ 0)
    (current : ((runAll before).table s).epoch = ((runAll before).step e).epoch) :
    invalidations (runAll before) e = 0 ∧
      ((runAll before).table s).epoch = (runAll before).epoch := by
  have aged := UInt32.le_iff_toNat_le.mp (faithful.aged s held)
  have grown := faithful.epoch_step careful
  rw [current, grown] at aged
  have quiet : invalidations (runAll before) e = 0 := by omega
  refine ⟨quiet, current.trans ?_⟩
  rw [← UInt32.toNat_inj, grown, quiet, Nat.add_zero]

theorem Faithful.keep (table : ((runAll before).step e).table = (runAll before).table)
    (clock : ((runAll before).step e).frame = (runAll before).frame ∨
      e.presentFrame = some ((runAll before).step e).frame)
    (later : (runAll before).frame ≤ ((runAll before).step e).frame)
    (other : ∀ s, ((runAll before).table s).key ≠ 0 →
      ((runAll before).table s).epoch = (runAll before).epoch →
      ¬RunsFor ((runAll before).table s).key (runAll before, e)) :
    Faithful (before ++ [e]) ((runAll before).step e) := by
  refine ⟨?_, ?_, ?_, ?_, ?_⟩
  · rw [faithful.epoch_step careful, history_append, totalInvalidations_append, faithful.epoch,
      Nat.add_assoc]
  · intro s held
    rw [table] at held ⊢
    exact UInt32.le_trans (faithful.aged s held) (faithful.epoch_le careful)
  · rw [List.filterMap_append, List.mem_append]
    obtain same | present := clock
    · rw [same]
      exact faithful.clock.imp_right .inl
    · refine .inr (.inr ?_)
      rw [List.filterMap_cons_some present]
      exact List.mem_cons_self
  · intro s held
    rw [table] at held ⊢
    exact UInt32.le_trans (faithful.frames s held) later
  · intro s held current
    rw [table] at held current ⊢
    obtain ⟨quiet, valid⟩ := faithful.counts careful held current
    rw [history_append]
    exact (faithful.stored s held valid).extend quiet (other s held valid)

theorem Faithful.clear (table : ((runAll before).step e).table = fun _ => {})
    (frame : ((runAll before).step e).frame = 0) :
    Faithful (before ++ [e]) ((runAll before).step e) := by
  have empty (s : Slot) : (((runAll before).step e).table s).key = 0 := by
    rw [table]
  refine ⟨?_, ?_, .inl frame, ?_, ?_⟩
  · rw [faithful.epoch_step careful, history_append, totalInvalidations_append, faithful.epoch,
      Nat.add_assoc]
  · exact fun s held => absurd (empty s) held
  · exact fun s held => absurd (empty s) held
  · exact fun s held => absurd (empty s) held

end

section

variable {before : List Event} {m : Memory} {p : UInt64}
  (faithful : Faithful before (runAll before)) (careful : Careful before (.decide m p))

include faithful careful

theorem Faithful.store {array : UInt64} {snap : List RecordSnap} {s : Slot}
    (active : (runAll before).active = true) (read : readCollection m p = some (array, snap))
    (run : ((runAll before).decide m p).2 = .run)
    (table : ((runAll before).step (.decide m p)).table = Function.update (runAll before).table s
      (refresh (runAll before) array snap ((runAll before).table s)))
    (apart : ∀ i, i ≠ s → ((runAll before).table i).key ≠ 0 →
      ((runAll before).table i).key ≠ array) :
    Faithful (before ++ [Event.decide m p]) ((runAll before).step (.decide m p)) := by
  obtain ⟨epoch, frame⟩ := decide_epoch (runAll before) m p
  change ((runAll before).step (.decide m p)).epoch = _ at epoch
  change ((runAll before).step (.decide m p)).frame = _ at frame
  obtain ⟨named, -, few⟩ := readCollection_keyed read
  refine ⟨?_, ?_, ?_, ?_, ?_⟩
  · rw [faithful.epoch_step careful, history_append, totalInvalidations_append, faithful.epoch,
      Nat.add_assoc]
  · intro i held
    rw [table] at held ⊢
    rw [epoch]
    by_cases here : i = s
    · rw [here, Function.update_self]
      exact UInt32.le_refl _
    · rw [Function.update_of_ne here] at held ⊢
      exact faithful.aged i held
  · rw [frame, List.filterMap_append, List.mem_append]
    exact faithful.clock.imp_right .inl
  · intro i held
    rw [table] at held ⊢
    rw [frame]
    by_cases here : i = s
    · rw [here, Function.update_self]
      exact UInt32.le_refl _
    · rw [Function.update_of_ne here] at held ⊢
      exact faithful.frames i held
  · intro i held current
    rw [table] at held current ⊢
    rw [epoch] at current
    rw [history_append]
    by_cases here : i = s
    · rw [here, Function.update_self]
      refine ⟨snap, few, rfl, List.take_left, ?_⟩
      exact ⟨history before, runAll before, m, p, [], rfl, active, run, read, rfl, nofun⟩
    · rw [Function.update_of_ne here] at held current ⊢
      refine (faithful.stored i held current).extend rfl ?_
      rintro ⟨m', p', same, other, -⟩
      cases same
      rw [named] at other
      exact apart i here held (Option.some.inj other).symm

theorem Faithful.decide :
    Faithful (before ++ [Event.decide m p]) ((runAll before).step (.decide m p)) := by
  have sound := tableSound_run before
  have keep (table : ((runAll before).step (.decide m p)).table = (runAll before).table)
      (other : ∀ s, ((runAll before).table s).key ≠ 0 →
        ((runAll before).table s).epoch = (runAll before).epoch →
        ¬RunsFor ((runAll before).table s).key (runAll before, .decide m p)) :
      Faithful (before ++ [Event.decide m p]) ((runAll before).step (.decide m p)) := by
    have frame := (decide_epoch (runAll before) m p).2
    exact faithful.keep careful table (.inl frame) (UInt32.le_of_eq frame.symm) other
  by_cases active : (runAll before).active = true
  · cases read : readCollection m p with
    | none =>
      have unchanged : (runAll before).decide m p = (runAll before, .run) := by
        simp [Gate.decide, active, read]
      refine keep (congrArg (fun a => a.1.table) unchanged) fun s held valid => ?_
      rintro ⟨m', p', same, named, -⟩
      cases same
      exact careful.keyed m p _ rfl active named held read s rfl valid
    | some collection =>
      obtain ⟨array, snap⟩ := collection
      have solid := (readCollection_keyed read).2.1
      have answer : (runAll before).decide m p = (runAll before).decideLocked array snap := by
        simp [Gate.decide, active, read]
      have decided := decideLocked_decided (runAll before) array snap
      rw [← answer] at decided
      generalize verdict : (runAll before).decide m p = turn at decided
      have table := congrArg (fun a => a.1.table) verdict
      have run := congrArg Prod.snd verdict
      cases decided with
      | put s live missing inside counted =>
        exact faithful.store careful active read run table fun i _ _ =>
          sound.tidy.absent solid missing
      | stored s own =>
        refine faithful.store careful active read run table fun i other held twin => other ?_
        exact sound.tidy.injective held (show ((runAll before).table i).key =
          ((runAll before).table s).key by rw [own, twin])
      | skipped s =>
        refine keep table fun i _ _ => ?_
        rintro ⟨m', p', same, -, ran⟩
        cases same
        rw [run] at ran
        cases ran
  · rw [Bool.not_eq_true] at active
    have unchanged : (runAll before).decide m p = (runAll before, .run) := by
      simp [Gate.decide, active]
    exact keep (congrArg (fun a => a.1.table) unchanged) fun s held =>
      absurd (sound.idle active s) held

end

def FramesInOrder (events : List Event) : Prop :=
  (events.filterMap Event.presentFrame).Pairwise (· ≤ ·)

theorem Faithful.step {before : List Event} {e : Event}
    (faithful : Faithful before (runAll before)) (careful : Careful before e)
    (ordered : FramesInOrder (before ++ [e])) :
    Faithful (before ++ [e]) ((runAll before).step e) := by
  by_cases decides : ∃ m p, e = .decide m p
  · obtain ⟨m, p, rfl⟩ := decides
    exact faithful.decide careful
  have other (m : Memory) (p : UInt64) : e ≠ .decide m p := fun same => decides ⟨m, p, same⟩
  obtain ⟨table, frame⟩ | ⟨table, clock⟩ := step_table (runAll before) e other
  · exact faithful.clear careful table frame
  refine faithful.keep careful table clock ?_ ?_
  · obtain same | present := clock
    · exact UInt32.le_of_eq same.symm
    unfold FramesInOrder at ordered
    rw [List.filterMap_append, List.pairwise_append] at ordered
    obtain first | earlier := faithful.clock
    · rw [first]
      exact UInt32.le_iff_toNat_le.mpr (Nat.zero_le _)
    · refine ordered.2.2 _ earlier _ ?_
      rw [List.filterMap_cons_some present]
      exact List.mem_cons_self
  · rintro s - - ⟨m, p, same, -⟩
    exact other m p same

/-- The collection is what it was when its job ran last: that call read the same array and
the same records, nothing was invalidated since, and it is less than
`kForcedRefreshFrames` frames ago. -/
def Unchanged (before : List Event) (m : Memory) (p : UInt64) : Prop :=
  ∃ array snap frame, readCollection m p = some (array, snap) ∧
    LastRun (history before) array snap frame ∧ frame ≤ (runAll before).frame ∧
    (runAll before).frame.toNat - frame.toNat < kForcedRefreshFrames.toNat

theorem Faithful.skip {before : List Event} {m : Memory} {p : UInt64}
    (faithful : Faithful before (runAll before))
    (skipped : ((runAll before).decide m p).2 = .skip) : Unchanged before m p := by
  unfold Gate.decide at skipped
  split at skipped
  · cases skipped
  split at skipped
  · cases skipped
  rename_i array snap read
  obtain ⟨-, solid, few⟩ := readCollection_keyed read
  have decided := decideLocked_decided (runAll before) array snap
  generalize (runAll before).decideLocked array snap = answer at decided skipped
  cases decided with
  | put => cases skipped
  | stored => cases skipped
  | skipped s own current count same fresh =>
    have held : ((runAll before).table s).key ≠ 0 := by
      rw [own]
      exact solid
    obtain ⟨old, old_few, old_count, old_same, last⟩ := faithful.stored s held current
    have length : old.length = snap.length := by
      have both := congrArg UInt32.toNat (old_count.symm.trans count)
      rw [UInt32.toNat_ofNat', UInt32.toNat_ofNat'] at both
      omega
    rw [length, same] at old_same
    rw [own, ← old_same] at last
    have le := faithful.frames s held
    refine ⟨array, snap, _, read, last, le, ?_⟩
    rw [← UInt32.toNat_sub_of_le _ _ le]
    exact UInt32.lt_iff_toNat_lt.mp fresh

/-- A job at `0x10000` for the array at `0x20000`, with records that are all zero. -/
def smallMemory (count : UInt8) : Memory where
  byte a :=
    if a < 0x10000 then none
    else if a = 0x1002A then some 2
    else if a = 0x10030 then some count
    else some 0
  unmapped _ low := if_pos low

end EdvrPatch.PropGate
