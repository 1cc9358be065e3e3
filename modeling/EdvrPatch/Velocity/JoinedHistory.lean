import EdvrPatch.Velocity.Emit

/-! Where a joined velocity comes from. A call that appended records either emits them or
fails, and the table has to remember both for the frame it is in and the one before. -/
namespace EdvrPatch.Velocity

open Lib

/-- The call appended records, or the owner was drained under it. -/
def Call.Appends (c : Call) : Prop :=
  c.after ≠ c.before

/-- The call appended no more records than the engine can, or none. -/
def Call.Counted (c : Call) : Prop :=
  c.before ≤ c.after ∧ c.after - c.before ≤ kMaxAppended

def Call.Emits (c : Call) (node : UInt64) (pose : Pose) (items : List UInt64) : Prop :=
  c.Counted ∧ c.Appends ∧ readRecordPose c.memory c.record = some (pose, node) ∧
    c.items = some items

def Call.Emitted (c : Call) : Prop :=
  ∃ node pose items, c.Emits node pose items

def Call.proven (c : Call) (pose : Pose) (items : List UInt64) : Bool :=
  (items.filter fun item => readItemPose c.memory item = some pose).length =
    (c.after - c.before).toNat

/-- The items of the call all hold this pose, which is that of its record. -/
def Call.Validated (c : Call) (pose : Pose) : Prop :=
  ∃ node items, c.Emits node pose items ∧ c.proven pose items = true

/-- A call for the engine record at this address with this node. The record of a call that
could not be read may be any that was at the address. -/
def Call.IsFor (c : Call) (record node : UInt64) : Prop :=
  c.record = record ∧ c.Appends ∧
    ∀ pose node', readRecordPose c.memory c.record = some (pose, node') → node' = node

/-- What a joined velocity rests on: the record was seen in the frame before, all its
calls of that frame validated with pose `prev`, and all its calls of this frame so far
validated with the pose that this one has. -/
structure Certified (done : List Call) (c : Call) (node : UInt64) (pose prev : Pose) : Prop where
  seen : ∃ earlier ∈ done, earlier.IsFor c.record node ∧ earlier.frame = c.frame - 1
  previous : ∀ earlier ∈ done, earlier.IsFor c.record node → earlier.frame = c.frame - 1 →
    earlier.Validated prev
  current : ∀ earlier ∈ done, earlier.IsFor c.record node → earlier.frame = c.frame →
    earlier.Validated pose
  here : ∃ items, c.Emits node pose items ∧ c.proven pose items = true

/-- What a call may be after others, for the table to remember it. -/
structure Orderly (done : List Call) (c : Call) : Prop where
  /-- The present frames never go back. -/
  order : ∀ earlier ∈ done, earlier.frame ≤ c.frame
  /-- No call is passed over because its count is not one that the engine has. -/
  counted : c.Counted
  /-- No call of its record that failed comes before the first that emits in the frame. -/
  failing : c.Emitted → ∀ failed ∈ done, failed.record = c.record → failed.frame = c.frame →
    failed.Appends → ∃ earlier ∈ done, earlier.record = c.record ∧ earlier.frame = c.frame ∧
      earlier.Emitted
  /-- An address does not go back to an engine record that it has left in the frame. -/
  reused : ∀ node pose items, c.Emits node pose items →
    ∀ first ∈ done, first.record = c.record → first.frame = c.frame → first.Appends →
    ∀ second ∈ done, second.record = c.record → second.frame = c.frame → second.Appends →
      (first.IsFor c.record node ↔ second.IsFor c.record node)

inductive Turn (t : Table) (c : Call) (o : Observed) : Prop
  | passed : ¬(c.Counted ∧ c.Appends) → o.table = t → o.answer = none → Turn t c o
  | failed : c.Appends → (∀ node pose items, ¬c.Emits node pose items) →
    o.table = t.taint c.record c.frame → o.answer = none → Turn t c o
  | emitted (node pose items) : c.Emits node pose items →
    o.table = (t.resolve c.record node c.frame pose (c.proven pose items)).1 →
    o.answer = some (t.resolve c.record node c.frame pose (c.proven pose items)).2 → Turn t c o

theorem observe_turn (t : Table) (c : Call) : Turn t c (observe t c) := by
  unfold observe
  split
  · rename_i drained
    refine .passed (fun both => ?_) rfl rfl
    have := both.1.1
    omega
  dsimp only
  split
  · rename_i many
    refine .passed (fun both => ?_) rfl rfl
    have := both.1.2
    omega
  split
  · rename_i none_
    refine .passed (fun both => both.2 ?_) rfl rfl
    omega
  have appends : c.Appends := by
    unfold Call.Appends
    omega
  have counted : c.Counted := by
    unfold Call.Counted
    omega
  split
  · rename_i fault
    refine .failed appends (fun node pose items emits => ?_) rfl rfl
    rw [emits.2.2.1] at fault
    cases fault
  rename_i pose node read
  split
  · rename_i missing
    refine .failed appends (fun node pose items emits => ?_) rfl rfl
    rw [emits.2.2.2] at missing
    cases missing
  rename_i items located
  exact .emitted node pose items ⟨counted, appends, read, located⟩ rfl rfl

/-! The table. -/

section

variable {t : Table} {record : UInt64} {frame : UInt32}

def Table.keys (t : Table) (i : Slot) : UInt64 :=
  (t i).record

def Table.Stuck (t : Table) (record : UInt64) (frame : UInt32) : Prop :=
  ∀ j ∈ rowOf record, (t j).record ≠ 0 ∧ ¬2 ≤ frame - (t j).frame

theorem findIn_fst (row : List Slot) (reuse : Option Slot) :
    (t.findIn record frame row reuse).1 = scan t.keys 0 record row := by
  induction row generalizing reuse with
  | nil => rfl
  | cons i row ih =>
    unfold Table.findIn scan Table.keys
    split
    · rfl
    split
    · rfl
    · exact ih _

theorem findIn_reuse {row : List Slot} {reuse : Option Slot} {j : Slot}
    (found : t.findIn record frame row reuse = (none, some j)) :
    reuse = some j ∨ j ∈ passed t.keys 0 record row ∧
      ((t j).record = 0 ∨ 2 ≤ frame - (t j).frame) := by
  induction row generalizing reuse with
  | nil =>
    cases found
    exact .inl rfl
  | cons i row ih =>
    unfold Table.findIn at found
    unfold passed Table.keys
    split at found
    · cases found
    rename_i other
    rw [if_neg other]
    split at found
    · rename_i hole
      rw [if_pos hole]
      cases reuse with
      | some k =>
        cases found
        exact .inl rfl
      | none =>
        cases found
        exact .inr ⟨List.mem_singleton.mpr rfl, .inl hole⟩
    rename_i solid
    rw [if_neg solid]
    obtain first | ⟨inside, free⟩ := ih found
    · split at first
      · rename_i old
        cases first
        exact .inr ⟨List.mem_cons_self, .inr old.2⟩
      · exact .inl first
    · exact .inr ⟨List.mem_cons_of_mem _ inside, free⟩

theorem findIn_stuck {row : List Slot} {reuse : Option Slot}
    (found : t.findIn record frame row reuse = (none, none)) :
    reuse = none ∧ ∀ j ∈ row, (t j).record ≠ 0 ∧ ¬2 ≤ frame - (t j).frame := by
  induction row generalizing reuse with
  | nil =>
    cases found
    exact ⟨rfl, nofun⟩
  | cons i row ih =>
    unfold Table.findIn at found
    split at found
    · cases found
    split at found
    · cases reuse <;> cases found
    rename_i solid
    obtain ⟨first, rest⟩ := ih found
    split at first
    · cases first
    rename_i young
    refine ⟨first, fun j member => ?_⟩
    rcases List.mem_cons.mp member with rfl | later
    · exact ⟨solid, fun old => young ⟨first, old⟩⟩
    · exact rest j later

inductive Found (t : Table) (record : UInt64) (frame : UInt32) : Option Slot × Option Slot → Prop
  | here (i reuse) : (t i).record = record → Found t record frame (some i, reuse)
  | free (j) : scan t.keys 0 record (rowOf record) = none →
    j ∈ passed t.keys 0 record (rowOf record) → ((t j).record = 0 ∨ 2 ≤ frame - (t j).frame) →
    Found t record frame (none, some j)
  | stuck : scan t.keys 0 record (rowOf record) = none → t.Stuck record frame →
    Found t record frame (none, none)

theorem find_found (t : Table) (record : UInt64) (frame : UInt32) :
    Found t record frame (t.find record frame) := by
  have first : (t.findIn record frame (rowOf record) none).1 =
      scan t.keys 0 record (rowOf record) := findIn_fst _ _
  generalize found : t.find record frame = answer
  unfold Table.find at found
  rw [found] at first
  match answer with
  | (some i, reuse) => exact .here i reuse (show t.keys i = record from key_of_scan first.symm)
  | (none, some j) =>
    obtain nothing | ⟨inside, free⟩ := findIn_reuse found
    · cases nothing
    · exact .free j first.symm inside free
  | (none, none) => exact .stuck first.symm (findIn_stuck found).2

end

/-! What the table remembers. -/

structure Justified (done : List Call) (e : Entry) : Prop where
  emitted : ∃ c ∈ done, c.record = e.record ∧ c.frame = e.frame ∧
    ∃ pose items, c.Emits e.node pose items
  latest : ∀ c ∈ done, c.record = e.record → c.Emitted → c.frame ≤ e.frame
  certified : e.certified = true → ∀ c ∈ done, c.IsFor e.record e.node → c.frame = e.frame →
    c.Validated e.now
  joined : e.certified = true → e.joined = true → e.frame ≠ 0 ∧
    (∃ c ∈ done, c.IsFor e.record e.node ∧ c.frame = e.frame - 1) ∧
      ∀ c ∈ done, c.IsFor e.record e.node → c.frame = e.frame - 1 → c.Validated e.prev

/-- Every entry is found and tells the truth, and a record that has emitted and has no
entry cannot get one in the same frame. -/
structure Remembers (done : List Call) (t : Table) : Prop where
  tidy : Tidy t.keys 0 rowOf
  entries : ∀ i, (t i).record ≠ 0 → Justified done (t i)
  absent : ∀ c ∈ done, c.Emitted → (∀ i, (t i).record ≠ c.record) →
    (∃ later ∈ done, c.frame < later.frame) ∨ t.Stuck c.record c.frame

variable {c : Call} {node : UInt64} {pose : Pose} {items : List UInt64}

theorem Call.Emits.isFor (emits : c.Emits node pose items) : c.IsFor c.record node := by
  refine ⟨rfl, emits.2.1, fun pose' node' read => ?_⟩
  rw [emits.2.2.1] at read
  cases read
  rfl

theorem Call.Emits.node_eq {other : UInt64} (emits : c.Emits node pose items)
    (same : c.IsFor c.record other) : node = other :=
  same.2.2 pose node emits.2.2.1

theorem Call.Emits.record_ne_zero (emits : c.Emits node pose items) : c.record ≠ 0 := by
  intro null
  have read := emits.2.2.1
  have fault : read64 c.memory (0 + kRecordNode) = none := by
    have first : c.memory.byte (0 + kRecordNode + .ofNat 0) = none :=
      c.memory.unmapped _ (by decide)
    unfold read64 Velocity.read Memory.copy
    rw [if_neg (by decide), List.range_succ_eq_map, List.mapM_cons, first]
    rfl
  unfold readRecordPose at read
  rw [null, fault] at read
  cases read

/-- An entry stays as it is over a call that tells nothing else of it. -/
theorem Justified.snoc {done : List Call} {e : Entry} (known : Justified done e)
    (latest : c.record = e.record → c.Emitted → c.frame ≤ e.frame)
    (certified : c.IsFor e.record e.node → c.frame = e.frame → c.Validated e.now)
    (joined : c.IsFor e.record e.node → e.frame ≠ 0 → c.frame ≠ e.frame - 1) :
    Justified (done ++ [c]) e := by
  obtain ⟨first, member, facts⟩ := known.emitted
  refine ⟨⟨first, List.mem_append_left _ member, facts⟩, ?_, ?_, ?_⟩
  · intro d member same emitted
    rcases List.mem_append.mp member with before | here
    · exact known.latest d before same emitted
    · rw [List.mem_singleton.mp here] at same emitted ⊢
      exact latest same emitted
  · intro proven d member isFor same
    rcases List.mem_append.mp member with before | here
    · exact known.certified proven d before isFor same
    · rw [List.mem_singleton.mp here] at isFor same ⊢
      exact certified isFor same
  · intro proven both
    obtain ⟨some_, ⟨seen, inside, facts⟩, all⟩ := known.joined proven both
    refine ⟨some_, ⟨seen, List.mem_append_left _ inside, facts⟩, fun d member isFor same => ?_⟩
    rcases List.mem_append.mp member with before | here
    · exact all d before isFor same
    · rw [List.mem_singleton.mp here] at isFor same
      exact absurd same (joined isFor some_)

theorem Justified.mono {done : List Call} {e : Entry} (known : Justified done e)
    (other : c.record = e.record → ¬c.Appends) : Justified (done ++ [c]) e := by
  refine known.snoc ?_ (fun isFor => absurd isFor.2.1 (other isFor.1))
    fun isFor => absurd isFor.2.1 (other isFor.1)
  rintro same ⟨node, pose, items, emits⟩
  exact absurd emits.2.1 (other same)

theorem sub_eq_zero_iff {a b : UInt32} : a - b = 0 ↔ b = a := by
  grind

theorem lt_of_old {a b : UInt32} (le : b ≤ a) (old : a - b ≠ 0) : b < a := by
  refine UInt32.lt_of_le_of_ne le ?_
  rintro rfl
  exact old (UInt32.sub_self _)

section

variable {done : List Call} {c : Call} {node : UInt64} {pose : Pose} {items : List UInt64}
  (orderly : Orderly done c) (emits : c.Emits node pose items)

include orderly emits

theorem justified_fresh
    (first : ∀ d ∈ done, d.IsFor c.record node → d.frame ≠ c.frame) :
    Justified (done ++ [c])
      { record := c.record, node, frame := c.frame, now := pose, prev := pose
        certified := c.proven pose items } := by
  refine ⟨⟨c, by simp, rfl, rfl, pose, items, emits⟩, ?_, ?_, nofun⟩
  · intro d member _ _
    rcases List.mem_append.mp member with before | here
    · exact orderly.order d before
    · rw [List.mem_singleton.mp here]
      exact UInt32.le_refl _
  · intro proven d member isFor same
    rcases List.mem_append.mp member with before | here
    · exact absurd same (first d before isFor)
    · rw [List.mem_singleton.mp here]
      exact ⟨node, items, emits, proven⟩

variable {e : Entry} (known : Justified done e) (own : e.record = c.record)

include known own

omit emits own in
theorem Justified.frame_le : e.frame ≤ c.frame := by
  obtain ⟨d, member, -, same, -⟩ := known.emitted
  rw [← same]
  exact orderly.order d member

omit emits own in
/-- A call that fails in a later frame leaves the entry as it is. -/
theorem Justified.failed_later (later : e.frame ≠ c.frame) (fails : ¬c.Emitted) :
    Justified (done ++ [c]) e := by
  have le := known.frame_le orderly
  refine known.snoc (fun _ emitted => absurd emitted fails) (fun _ same => absurd same.symm later) ?_
  intro _ some_ same
  grind

theorem Justified.first_of_frame (old : c.frame - e.frame ≠ 0) :
    ∀ d ∈ done, d.record = c.record → d.Appends → d.frame ≠ c.frame := by
  intro d member same appends here
  obtain ⟨earlier, before, record, frame, emitted⟩ :=
    orderly.failing ⟨node, pose, items, emits⟩ d member same here appends
  have le := known.latest earlier before (record.trans own.symm) emitted
  have lt := lt_of_old (known.frame_le orderly) old
  rw [frame] at le
  exact absurd lt (UInt32.not_lt.mpr le)

theorem Justified.first_of_node (other : e.node ≠ node) :
    ∀ d ∈ done, d.IsFor c.record node → d.frame ≠ c.frame := by
  intro d member isFor here
  by_cases old : c.frame - e.frame = 0
  · obtain ⟨first, inside, same, frame, pose', items', emitted⟩ := known.emitted
    rw [sub_eq_zero_iff] at old
    have both := orderly.reused node pose items emits first inside (same.trans own)
      (frame.trans old) emitted.2.1 d member isFor.1 here isFor.2.1
    have claimed := both.mpr isFor
    rw [← own, ← same] at claimed
    exact other (emitted.node_eq claimed)
  · exact known.first_of_frame orderly emits own old d member isFor.1 isFor.2.1 here

omit orderly emits own in
theorem Justified.uncertified (frame : e.frame = c.frame) :
    Justified (done ++ [c]) { e with certified := false } := by
  obtain ⟨first, member, facts⟩ := known.emitted
  refine ⟨⟨first, List.mem_append_left _ member, facts⟩, ?_, nofun, nofun⟩
  intro d member same emitted
  rcases List.mem_append.mp member with before | here
  · exact known.latest d before same emitted
  · rw [List.mem_singleton.mp here]
    exact UInt32.le_of_eq frame.symm

omit orderly own in
theorem Justified.repeated (frame : e.frame = c.frame) (same_pose : e.now = pose)
    (proven : c.proven pose items = true) :
    Justified (done ++ [c]) e := by
  refine known.snoc (fun _ _ => UInt32.le_of_eq frame.symm) (fun _ _ => ?_) ?_
  · rw [same_pose]
    exact ⟨node, items, emits, proven⟩
  · intro _ some_ same
    rw [← frame] at same
    grind

omit orderly emits in
theorem Justified.seen_before (aged : c.frame - e.frame = 1) (same_node : e.node = node) :
    ∃ d ∈ done, d.IsFor c.record node ∧ d.frame = c.frame - 1 := by
  obtain ⟨d, member, same, frame, pose', items', emitted⟩ := known.emitted
  refine ⟨d, member, ?_, by grind⟩
  rw [← own, ← same, ← same_node]
  exact emitted.isFor

omit orderly emits in
theorem Justified.validated_before (aged : c.frame - e.frame = 1) (same_node : e.node = node)
    (certified : e.certified = true) :
    ∀ d ∈ done, d.IsFor c.record node → d.frame = c.frame - 1 → d.Validated e.now := by
  intro d member isFor same
  rw [← own, ← same_node] at isFor
  exact known.certified certified d member isFor (by grind)

theorem Justified.aged (aged : c.frame - e.frame = 1) (same_node : e.node = node) :
    Justified (done ++ [c])
      { e with
        prev := e.now, now := pose, frame := c.frame, certified := c.proven pose items
        joined := e.certified && c.proven pose items } := by
  have first := known.first_of_frame orderly emits own (by rw [aged]; decide)
  have fresh := justified_fresh orderly emits fun d member isFor =>
    first d member isFor.1 isFor.2.1
  rw [← own, ← same_node] at fresh
  refine ⟨fresh.emitted, fresh.latest, fresh.certified, fun _ joined => ?_⟩
  have certified : e.certified = true := by
    rw [Bool.and_eq_true] at joined
    exact joined.1
  obtain ⟨d, member, facts⟩ := known.seen_before own aged same_node
  rw [← own, ← same_node] at facts
  have some_ : c.frame ≠ 0 := by
    have le := known.frame_le orderly
    grind
  refine ⟨some_, ⟨d, List.mem_append_left _ member, facts⟩, fun d member isFor same => ?_⟩
  rcases List.mem_append.mp member with before | here
  · rw [own, same_node] at isFor
    exact known.validated_before own aged same_node certified d before isFor same
  · rw [List.mem_singleton.mp here] at same
    grind

theorem resolveFound_justified :
    Justified (done ++ [c]) (Table.resolveFound e node c.frame pose (c.proven pose items)).1 := by
  unfold Table.resolveFound
  dsimp only
  split
  · rename_i other
    rw [own]
    exact justified_fresh orderly emits (known.first_of_node orderly emits own other)
  rename_i same_node
  rw [not_not] at same_node
  split
  · rename_i now
    rw [sub_eq_zero_iff] at now
    split
    · exact known.uncertified now
    rename_i proven
    split
    · exact known.uncertified now
    rename_i same_pose
    have repeated := known.repeated emits now (not_not.mp same_pose).symm (by simpa using proven)
    split <;> exact repeated
  rename_i old
  split
  · rename_i aged
    have next := known.aged orderly emits own aged same_node
    split <;> exact next
  · rw [own]
    have first := known.first_of_frame orderly emits own old
    exact justified_fresh orderly emits fun d member isFor => first d member isFor.1 isFor.2.1

theorem resolveFound_certified {prev : Pose}
    (answer : (Table.resolveFound e node c.frame pose (c.proven pose items)).2 = (.joined, prev)) :
    Certified done c node pose prev := by
  unfold Table.resolveFound at answer
  dsimp only at answer
  split at answer
  · cases answer
  rename_i same_node
  rw [not_not] at same_node
  split at answer
  · rename_i now
    rw [sub_eq_zero_iff] at now
    split at answer
    · cases answer
    rename_i proven
    split at answer
    · cases answer
    rename_i same_pose
    rw [not_not] at same_pose
    split at answer
    · cases answer
    rename_i both
    cases answer
    simp only [Bool.not_eq_eq_eq_not, Bool.not_true, not_or, Bool.not_eq_false] at both proven
    obtain ⟨-, seen, all⟩ := known.joined both.1 both.2
    have known_now := known.certified both.1
    rw [own, same_node, now] at seen all known_now
    rw [← same_pose] at known_now
    exact ⟨seen, all, known_now, items, emits, proven⟩
  rename_i old
  split at answer
  · rename_i aged
    split at answer
    · cases answer
    rename_i history
    cases answer
    simp only [Bool.not_eq_eq_eq_not, Bool.not_true, Bool.not_eq_false, Bool.and_eq_true] at history
    refine ⟨known.seen_before own aged same_node,
      known.validated_before own aged same_node history.1, ?_, items, emits, history.2⟩
    intro d member isFor same
    exact absurd same (known.first_of_frame orderly emits own old d member isFor.1 isFor.2.1)
  · cases answer

end

theorem Table.keys_update (t : Table) (i : Slot) (e : Entry) :
    Table.keys (Function.update t i e) = Function.update t.keys i e.record := by
  funext j
  unfold Table.keys
  by_cases here : j = i
  · rw [here, Function.update_self, Function.update_self]
  · rw [Function.update_of_ne here, Function.update_of_ne here]

section

variable {done : List Call} {t : Table} {c : Call} (known : Remembers done t)
  (orderly : Orderly done c)

include known orderly

omit orderly in
theorem Remembers.keep (told : ∀ i, (t i).record ≠ 0 → Justified (done ++ [c]) (t i))
    (stuck : c.Emitted → t.Stuck c.record c.frame) : Remembers (done ++ [c]) t := by
  refine ⟨known.tidy, told, fun d member emitted absent => ?_⟩
  rcases List.mem_append.mp member with before | here
  · refine (known.absent d before emitted absent).imp_left ?_
    rintro ⟨later, inside, lt⟩
    exact ⟨later, List.mem_append_left _ inside, lt⟩
  · rw [List.mem_singleton.mp here] at emitted ⊢
    exact .inr (stuck emitted)

omit orderly in
theorem Remembers.told_missing (solid : c.record ≠ 0)
    (missing : scan t.keys 0 c.record (rowOf c.record) = none) (i : Slot)
    (held : (t i).record ≠ 0) : Justified (done ++ [c]) (t i) :=
  (known.entries i held).mono fun same =>
    absurd same.symm (known.tidy.absent solid missing)

theorem Remembers.write {i : Slot} {e : Entry} (own : (t i).record = c.record)
    (same : e.record = c.record) (frame : e.frame = c.frame)
    (told : c.record ≠ 0 → Justified (done ++ [c]) e) :
    Remembers (done ++ [c]) (Function.update t i e) := by
  have keys : Table.keys (Function.update t i e) = t.keys := by
    rw [Table.keys_update, same, ← own]
    exact Function.update_eq_self i t.keys
  refine ⟨by rw [keys]; exact known.tidy, fun j held => ?_, ?_⟩
  · by_cases here : j = i
    · rw [here, Function.update_self] at held ⊢
      exact told (same ▸ held)
    · rw [Function.update_of_ne here] at held ⊢
      refine (known.entries j held).mono fun twin => absurd ?_ here
      exact known.tidy.injective held (show (t j).record = (t i).record by rw [own, twin])
  · intro d member emitted absent
    have elsewhere : d.record ≠ c.record := fun twin => absent i (by
      rw [Function.update_self, same, twin])
    rcases List.mem_append.mp member with before | here
    · have absent_before (j : Slot) : (t j).record ≠ d.record := by
        have key := congrFun keys j
        unfold Table.keys at key
        rw [← key]
        exact absent j
      obtain ⟨later, inside, lt⟩ | stuck := known.absent d before emitted absent_before
      · exact .inl ⟨later, List.mem_append_left _ inside, lt⟩
      by_cases lt : d.frame < c.frame
      · exact .inl ⟨c, by simp, lt⟩
      have now := UInt32.le_antisymm (orderly.order d before) (UInt32.not_lt.mp lt)
      refine .inr fun j inside => ?_
      by_cases here : j = i
      · subst here
        rw [Function.update_self, frame, now, UInt32.sub_self, same]
        exact ⟨own ▸ (stuck j inside).1, by decide⟩
      · rw [Function.update_of_ne here]
        exact stuck j inside
    · rw [List.mem_singleton.mp here] at elsewhere
      exact absurd rfl elsewhere

theorem Remembers.first_of_free {j : Slot} (solid : c.record ≠ 0)
    (missing : scan t.keys 0 c.record (rowOf c.record) = none)
    (inside : j ∈ passed t.keys 0 c.record (rowOf c.record))
    (free : (t j).record = 0 ∨ 2 ≤ c.frame - (t j).frame) (emits : c.Emitted) :
    ∀ d ∈ done, d.record = c.record → d.Appends → d.frame ≠ c.frame := by
  intro d member same appends now
  obtain ⟨earlier, before, record, frame, emitted⟩ :=
    orderly.failing emits d member same now appends
  have absent (i : Slot) : (t i).record ≠ earlier.record := by
    rw [record]
    exact known.tidy.absent solid missing
  obtain ⟨later, after, lt⟩ | stuck := known.absent earlier before emitted absent
  · rw [frame] at lt
    exact absurd lt (UInt32.not_lt.mpr (orderly.order later after))
  · rw [record, frame] at stuck
    obtain ⟨full, young⟩ := stuck j (mem_of_passed inside)
    exact free.elim full young

theorem Remembers.put {j : Slot} {e : Entry} (solid : c.record ≠ 0)
    (missing : scan t.keys 0 c.record (rowOf c.record) = none)
    (inside : j ∈ passed t.keys 0 c.record (rowOf c.record))
    (free : (t j).record = 0 ∨ 2 ≤ c.frame - (t j).frame) (same : e.record = c.record)
    (told : Justified (done ++ [c]) e) : Remembers (done ++ [c]) (Function.update t j e) := by
  refine ⟨?_, fun i held => ?_, ?_⟩
  · rw [Table.keys_update, same]
    exact known.tidy.insert solid missing inside
  · by_cases here : i = j
    · rw [here, Function.update_self]
      exact told
    · rw [Function.update_of_ne here] at held ⊢
      exact (known.entries i held).mono fun twin =>
        absurd twin.symm (known.tidy.absent solid missing)
  · intro d member emitted absent
    have elsewhere : d.record ≠ c.record := fun twin => absent j (by
      rw [Function.update_self, same, twin])
    have before : d ∈ done := by
      refine (List.mem_append.mp member).resolve_right fun here => ?_
      rw [List.mem_singleton.mp here] at elsewhere
      exact absurd rfl elsewhere
    by_cases lt : d.frame < c.frame
    · exact .inl ⟨c, by simp, lt⟩
    have now := UInt32.le_antisymm (orderly.order d before) (UInt32.not_lt.mp lt)
    -- an entry that gives way is of an earlier frame
    have kept (i : Slot) : (t i).record ≠ d.record := by
      intro held
      by_cases here : i = j
      · subst here
        obtain ⟨node, pose, items, emits⟩ := emitted
        have old := free.resolve_left (by rw [held]; exact emits.record_ne_zero)
        have entry := known.entries i (by rw [held]; exact emits.record_ne_zero)
        have le := entry.latest d before held.symm ⟨node, pose, items, emits⟩
        have frame_le := entry.frame_le orderly
        rw [now] at le
        rw [UInt32.le_antisymm frame_le le, UInt32.sub_self] at old
        exact absurd old (by decide)
      · exact absent i (by rw [Function.update_of_ne here]; exact held)
    obtain ⟨later, after, lt⟩ | stuck := known.absent d before emitted kept
    · exact .inl ⟨later, List.mem_append_left _ after, lt⟩
    refine .inr fun i member => ?_
    have other : i ≠ j := by
      rintro rfl
      obtain ⟨full, young⟩ := stuck i member
      rw [now] at young
      exact free.elim full young
    rw [Function.update_of_ne other]
    exact stuck i member

/-- A failed call spoils the entry of its record where that is of this frame. One of a
frame before is left alone, and so far nothing has been emitted in this frame. -/
theorem Remembers.taint (fails : ¬c.Emitted) :
    Remembers (done ++ [c]) (t.taint c.record c.frame) := by
  have found := find_found t c.record c.frame
  have keep (other : ∀ i, (t i).record ≠ 0 → (t i).record = c.record → (t i).frame ≠ c.frame) :
      Remembers (done ++ [c]) t := by
    refine known.keep (fun i held => ?_) fun emitted => absurd emitted fails
    by_cases own : (t i).record = c.record
    · exact (known.entries i held).failed_later orderly (other i held own) fails
    · exact (known.entries i held).mono fun same => absurd same.symm own
  unfold Table.taint
  generalize t.find c.record c.frame = answer at found
  cases found with
  | here i reuse own =>
    dsimp only
    split
    · rename_i now
      exact known.write orderly own own now fun solid =>
        (known.entries i (by rw [own]; exact solid)).uncertified now
    · rename_i older
      refine keep fun j held twin => ?_
      rwa [known.tidy.injective held (show (t j).record = (t i).record by rw [own, twin])]
  | free j missing inside free =>
    refine keep fun i held own => absurd own ?_
    exact known.tidy.absent (own ▸ held) missing
  | stuck missing stuck =>
    refine keep fun i held own => absurd own ?_
    exact known.tidy.absent (own ▸ held) missing

theorem Remembers.resolve {node : UInt64} {pose : Pose} {items : List UInt64}
    (emits : c.Emits node pose items) :
    Remembers (done ++ [c]) (t.resolve c.record node c.frame pose (c.proven pose items)).1 ∧
      ∀ prev, (t.resolve c.record node c.frame pose (c.proven pose items)).2 = (.joined, prev) →
        Certified done c node pose prev := by
  have solid := emits.record_ne_zero
  have found := find_found t c.record c.frame
  unfold Table.resolve
  generalize t.find c.record c.frame = answer at found
  cases found with
  | here i reuse own =>
    have entry := known.entries i (by rw [own]; exact solid)
    have told := resolveFound_justified orderly emits entry own
    refine ⟨known.write orderly own ?_ ?_ fun _ => told, fun prev => ?_⟩
    · unfold Table.resolveFound
      grind
    · unfold Table.resolveFound
      grind
    · exact resolveFound_certified orderly emits entry own
  | free j missing inside free =>
    have first := known.first_of_free orderly solid missing inside free ⟨node, pose, items, emits⟩
    have told := justified_fresh orderly emits fun d member isFor =>
      first d member isFor.1 isFor.2.1
    exact ⟨known.put orderly solid missing inside free rfl told, nofun⟩
  | stuck missing stuck =>
    exact ⟨known.keep (known.told_missing solid missing) fun _ => stuck, nofun⟩

theorem Remembers.observe : Remembers (done ++ [c]) (observe t c).table ∧
    ∀ prev, (Velocity.observe t c).answer = some (.joined, prev) →
      ∃ node pose, Certified done c node pose prev := by
  cases observe_turn t c with
  | passed other table answer =>
    rw [table, answer]
    have quiet : ¬c.Appends := fun appends => other ⟨orderly.counted, appends⟩
    refine ⟨known.keep (fun i held => (known.entries i held).mono fun _ => quiet) ?_, nofun⟩
    rintro ⟨node, pose, items, emits⟩
    exact absurd emits.2.1 quiet
  | failed appends fails table answer =>
    rw [table, answer]
    refine ⟨known.taint orderly ?_, nofun⟩
    rintro ⟨node, pose, items, emits⟩
    exact fails node pose items emits
  | emitted node pose items emits table answer =>
    rw [table, answer]
    obtain ⟨kept, certified⟩ := known.resolve orderly emits
    exact ⟨kept, fun prev same => ⟨node, pose, certified prev (Option.some.inj same)⟩⟩

end

def OrderlyRun (calls : List Call) : Prop :=
  ∀ done c rest, calls = done ++ c :: rest → Orderly done c

theorem remembers_run {done : List Call} (orderly : OrderlyRun done) :
    Remembers done (observeAll (fun _ => {}) done) := by
  induction done using List.reverseRecOn with
  | nil => exact ⟨fun _ solid => absurd rfl solid, fun _ solid => absurd rfl solid, nofun⟩
  | append_singleton done c ih =>
    have before : OrderlyRun done := fun front d rest split => orderly front d (rest ++ [c]) (by
      rw [split, List.append_assoc]
      rfl)
    unfold observeAll
    rw [List.foldl_append]
    exact ((ih before).observe (orderly done c [] rfl)).1

/-- A joined velocity has a certified previous pose, in every run whose calls the table
can remember. -/
theorem joined_is_certified {calls : List Call} (orderly : OrderlyRun calls)
    {done rest : List Call} {c : Call} (split : calls = done ++ c :: rest) {prev : Pose}
    (joined : (observe (observeAll (fun _ => {}) done) c).answer = some (.joined, prev)) :
    ∃ node pose, Certified done c node pose prev := by
  have before : OrderlyRun done := fun front d rest' split' => orderly front d (rest' ++ c :: rest)
    (by rw [split, split', List.append_assoc]; rfl)
  exact ((remembers_run before).observe (orderly done c rest split)).2 prev joined

/-- A record at `0x10000`, its dictionary entry at `0x20000` and a node with one item at
`0x30000`. All poses are zero. -/
def smallMemory : Memory where
  byte a :=
    if a < 0x10000 then none
    else if a = 0x20032 then some 3
    else if a = 0x30018 then some 1
    else some 0
  unmapped _ low := if_pos low

def smallCall (frame : UInt32) (entry : UInt64) : Call where
  record := 0x10000
  owner := 0x40000
  before := 0
  after := 1
  frame := frame
  lookup := some fun _ _ => some entry
  memory := smallMemory
  writable _ _ := true

theorem smallCall_emits (frame : UInt32) : (smallCall frame 0x20000).Emits 0 {} [0x30020] := by
  have counted : (smallCall frame 0x20000).Counted :=
    (by decide : (0 : Int) ≤ 1 ∧ (1 : Int) - 0 ≤ kMaxAppended)
  have appends : (smallCall frame 0x20000).Appends := (by decide : (1 : Int) ≠ 0)
  have read : readRecordPose smallMemory 0x10000 = some ({}, 0) := by decide +kernel
  have located : collectItems smallMemory 0x20000 1 = some [0x30020] := by decide +kernel
  exact ⟨counted, appends, read, located⟩

theorem smallRun_orderly : OrderlyRun [smallCall 1 0x20000, smallCall 2 0x20000] := by
  have emits := smallCall_emits
  rintro done c rest split
  match done with
  | [] =>
    cases split
    exact ⟨nofun, (emits 1).1, fun _ _ none => absurd none List.not_mem_nil, nofun⟩
  | [d] =>
    cases split
    refine ⟨fun d member => ?_, (emits 2).1, fun _ failed member _ same => ?_, ?_⟩
    · rw [List.mem_singleton.mp member]
      exact (show (1 : UInt32) ≤ 2 by decide)
    · rw [List.mem_singleton.mp member] at same
      exact absurd (show (1 : UInt32) = 2 from same) (by decide)
    · intro _ _ _ _ first member _ same
      rw [List.mem_singleton.mp member] at same
      exact absurd (show (1 : UInt32) = 2 from same) (by decide)
  | _ :: _ :: done =>
    have short := congrArg List.length split
    simp only [List.length_cons, List.length_append, List.length_nil] at short
    omega

theorem joined_is_certified_small :
    ∃ node pose, Certified [smallCall 1 0x20000] (smallCall 2 0x20000) node pose {} :=
  joined_is_certified smallRun_orderly rfl (by decide +kernel)

/-- A call that fails before the first emission of its frame is forgotten: the next call
of the frame is joined all the same. -/
theorem failed_call_forgotten :
    ∃ (done : List Call) (c : Call) (prev : Pose),
      (observe (observeAll (fun _ => {}) done) c).answer = some (.joined, prev) ∧
        ¬∃ node pose, Certified done c node pose prev := by
  refine ⟨[smallCall 1 0x20000, smallCall 2 0], smallCall 2 0x20000, {}, by decide +kernel, ?_⟩
  rintro ⟨node, pose, certified⟩
  obtain ⟨items, emits, -⟩ := certified.here
  have isFor : (smallCall 2 0).IsFor (smallCall 2 0x20000).record node := emits.isFor
  obtain ⟨_, _, located, -⟩ := certified.current (smallCall 2 0) (by simp) isFor rfl
  have missing : (smallCall 2 0).items = none := rfl
  exact absurd (missing.symm.trans located.2.2.2) nofun

end EdvrPatch.Velocity
