import EdvrPatch.Velocity.JoinedHistory

/-! The table over every sequence of its calls, and the nodes that the items of a call are
collected from. -/
namespace EdvrPatch.Velocity

open Lib

def kNoTick : UInt32 := 0xFFFFFFFF

namespace Table

def lastFrame (t : Table) (record : UInt64) : UInt32 :=
  match (t.find record 0).1 with
  | some i => (t i).frame
  | none => kNoTick

def clear (_ : Table) : Table := fun _ => {}

def Holds (t : Table) (record : UInt64) : Prop := ∃ i, (t i).record = record

end Table

inductive TableCall
  | resolve (record node : UInt64) (frame : UInt32) (pose : Pose) (proven : Bool)
  | taint (record : UInt64) (frame : UInt32)
  | lastFrame (record : UInt64)
  | clear

/-- No entry is made for a null record: a zero marks a free slot. -/
def TableCall.Solid : TableCall → Prop
  | .resolve record _ _ _ _ => record ≠ 0
  | _ => True

def Table.perform (t : Table) : TableCall → Table
  | .resolve record node frame pose proven => (t.resolve record node frame pose proven).1
  | .taint record frame => t.taint record frame
  | .lastFrame _ => t
  | .clear => t.clear

def Table.performAll (calls : List TableCall) : Table :=
  calls.foldl Table.perform fun _ => {}

def lastSeen (record : UInt64) (calls : List TableCall) : Option UInt32 :=
  calls.foldl (fun seen call => match call with
    | .resolve other _ frame _ _ => if other = record then some frame else seen
    | .clear => none
    | _ => seen) none

theorem lastSeen_resolve (record other node : UInt64) (frame : UInt32) (pose : Pose)
    (proven : Bool) (calls : List TableCall) :
    lastSeen record (calls ++ [TableCall.resolve other node frame pose proven]) =
      if other = record then some frame else lastSeen record calls := by
  simp [lastSeen]

@[simp] theorem lastSeen_taint (record other : UInt64) (frame : UInt32)
    (calls : List TableCall) :
    lastSeen record (calls ++ [TableCall.taint other frame]) = lastSeen record calls := by
  simp [lastSeen]

@[simp] theorem lastSeen_lastFrame (record other : UInt64) (calls : List TableCall) :
    lastSeen record (calls ++ [TableCall.lastFrame other]) = lastSeen record calls := by
  simp [lastSeen]

section

variable {t : Table} {record : UInt64}

theorem resolveFound_names (e : Entry) (node : UInt64) (frame : UInt32) (pose : Pose)
    (proven : Bool) :
    (Table.resolveFound e node frame pose proven).1.record = e.record ∧
      (Table.resolveFound e node frame pose proven).1.frame = frame := by
  unfold Table.resolveFound
  grind

theorem resolveFound_stores (e : Entry) (node : UInt64) (frame : UInt32) (pose : Pose)
    (proven : Bool) :
    (Table.resolveFound e node frame pose proven).1.node = node ∧
      ((Table.resolveFound e node frame pose proven).1.now = pose ∨ e.node = node ∧ e.frame = frame ∧
        (Table.resolveFound e node frame pose proven).1.now = e.now ∧
        (Table.resolveFound e node frame pose proven).1.certified = false) := by
  unfold Table.resolveFound
  grind

/-- The record is held as it was emitted. A second pose in one frame only takes back that
the first one is certain. -/
def Stores (before after : Table) (record node : UInt64) (frame : UInt32) (pose : Pose) : Prop :=
  ∃ i, (after i).record = record ∧ (after i).node = node ∧ (after i).frame = frame ∧
    ((after i).now = pose ∨ ((before i).record = record ∧ (before i).node = node ∧
      (before i).frame = frame ∧ (after i).now = (before i).now ∧ (after i).certified = false))

theorem resolve_stores (t : Table) (record node : UInt64) (frame : UInt32) (pose : Pose)
    (proven : Bool) :
    Stores t (t.resolve record node frame pose proven).1 record node frame pose ∨
      (scan t.keys 0 record (rowOf record) = none ∧ t.Stuck record frame) := by
  have found := find_found t record frame
  unfold Table.resolve
  generalize t.find record frame = answer at found
  cases found with
  | here i reuse own =>
    have names := resolveFound_names (t i) node frame pose proven
    obtain ⟨sameNode, held⟩ := resolveFound_stores (t i) node frame pose proven
    refine .inl ⟨i, ?_⟩
    dsimp only
    rw [Function.update_self]
    exact ⟨names.1.trans own, sameNode, names.2, held.imp_right fun earlier => ⟨own, earlier⟩⟩
  | free j missing inside free =>
    refine .inl ⟨j, ?_⟩
    dsimp only
    rw [Function.update_self]
    exact ⟨rfl, rfl, rfl, .inl rfl⟩
  | stuck missing young => exact .inr ⟨missing, young⟩

theorem resolve_cases (t : Table) (record node : UInt64) (frame : UInt32) (pose : Pose)
    (proven : Bool) :
    (∃ i e, (t i).record = record ∧ e.record = record ∧ e.frame = frame ∧
      (t.resolve record node frame pose proven).1 = Function.update t i e) ∨
    (scan t.keys 0 record (rowOf record) = none ∧ ∃ j e,
      j ∈ passed t.keys 0 record (rowOf record) ∧
      ((t j).record = 0 ∨ 2 ≤ frame - (t j).frame) ∧ e.record = record ∧ e.frame = frame ∧
      (t.resolve record node frame pose proven).1 = Function.update t j e) ∨
    (scan t.keys 0 record (rowOf record) = none ∧
      (t.resolve record node frame pose proven).1 = t) := by
  have found := find_found t record frame
  unfold Table.resolve
  generalize t.find record frame = answer at found
  cases found with
  | here i reuse own =>
    have names := resolveFound_names (t i) node frame pose proven
    exact .inl ⟨i, _, own, names.1.trans own, names.2, rfl⟩
  | free j missing inside free =>
    exact .inr (.inl ⟨missing, j, _, inside, free, rfl, rfl, rfl⟩)
  | stuck missing _ => exact .inr (.inr ⟨missing, rfl⟩)

theorem taint_names (t : Table) (record : UInt64) (frame : UInt32) (i : Slot) :
    (t.taint record frame i).record = (t i).record ∧
      (t.taint record frame i).frame = (t i).frame := by
  unfold Table.taint
  generalize t.find record frame = answer
  obtain ⟨_ | j, _⟩ := answer
  · exact ⟨rfl, rfl⟩
  dsimp only
  split
  · by_cases here : i = j
    · subst here
      simp
    · simp [Function.update_of_ne here]
  · exact ⟨rfl, rfl⟩

theorem taint_keys (t : Table) (record : UInt64) (frame : UInt32) :
    (t.taint record frame).keys = t.keys := by
  funext i
  exact (taint_names t record frame i).1

/-- Every entry is found, and is of the frame that its record was last seen in. -/
structure Timed (calls : List TableCall) (t : Table) : Prop where
  tidy : Tidy t.keys 0 rowOf
  seen : ∀ i, (t i).record ≠ 0 → lastSeen (t i).record calls = some (t i).frame

variable {calls : List TableCall}

variable {node : UInt64} {frame : UInt32} {pose : Pose} {proven : Bool} {i : Slot}

theorem Timed.write {e : Entry} (known : Timed calls t) (same : e.record = record)
    (frame_eq : e.frame = frame) (tidy : Tidy (Table.keys (Function.update t i e)) 0 rowOf)
    (alone : ∀ j, j ≠ i → (t j).record ≠ 0 → (t j).record ≠ record) :
    Timed (calls ++ [TableCall.resolve record node frame pose proven]) (Function.update t i e) := by
  refine ⟨tidy, fun j solid => ?_⟩
  rw [lastSeen_resolve]
  by_cases here : j = i
  · subst here
    rw [Function.update_self, if_pos same.symm, frame_eq]
  · rw [Function.update_of_ne here] at solid ⊢
    rw [if_neg (alone j here solid).symm]
    exact known.seen j solid

theorem Timed.resolve (known : Timed calls t) (solid : record ≠ 0) :
    Timed (calls ++ [TableCall.resolve record node frame pose proven])
      (t.resolve record node frame pose proven).1 := by
  obtain ⟨i, e, own, same, frame_eq, eq⟩ | ⟨missing, j, e, inside, _, same, frame_eq, eq⟩ |
    ⟨missing, eq⟩ := resolve_cases t record node frame pose proven
  · rw [eq]
    apply known.write same frame_eq
    · have keys : Table.keys (Function.update t i e) = t.keys := by
        rw [Table.keys_update, same, ← own]
        exact Function.update_eq_self i t.keys
      rw [keys]
      exact known.tidy
    · intro j other held twin
      apply other
      exact known.tidy.injective held (show (t j).record = (t i).record by rw [twin, own])
  · rw [eq]
    apply known.write same frame_eq
    · rw [Table.keys_update, same]
      exact known.tidy.insert solid missing inside
    · intro j _ _
      exact known.tidy.absent solid missing
  · rw [eq]
    refine ⟨known.tidy, fun i held => ?_⟩
    have other : (t i).record ≠ record := known.tidy.absent solid missing
    rw [lastSeen_resolve, if_neg other.symm]
    exact known.seen i held

theorem Timed.perform {call : TableCall} (known : Timed calls t) (solid : call.Solid) :
    Timed (calls ++ [call]) (t.perform call) := by
  cases call with
  | resolve record node frame pose proven => exact known.resolve solid
  | taint record frame =>
    refine ⟨?_, fun i held => ?_⟩
    · show Tidy (t.taint record frame).keys 0 rowOf
      rw [taint_keys]
      exact known.tidy
    · have names := taint_names t record frame i
      unfold Table.perform at held ⊢
      rw [names.1] at held ⊢
      rw [lastSeen_taint, names.2]
      exact known.seen i held
  | lastFrame record =>
    refine ⟨known.tidy, fun i held => ?_⟩
    rw [lastSeen_lastFrame]
    exact known.seen i held
  | clear => exact ⟨fun _ held => absurd rfl held, fun _ held => absurd rfl held⟩

theorem Timed.find (known : Timed calls t) (held : (t i).record ≠ 0) (frame : UInt32) :
    (t.find (t i).record frame).1 = some i := by
  unfold Table.find
  rw [findIn_fst]
  exact known.tidy i held

theorem Timed.lastFrame (known : Timed calls t) (held : (t i).record ≠ 0) :
    some (t.lastFrame (t i).record) = lastSeen (t i).record calls := by
  unfold Table.lastFrame
  rw [known.find held, known.seen i held]

theorem Timed.evicts {other : UInt64} (known : Timed calls t) (solid : record ≠ 0)
    (held : t.Holds record) (gone : ¬(t.resolve other node frame pose proven).1.Holds record) :
    other ≠ record ∧ ∃ seen, lastSeen record calls = some seen ∧ 2 ≤ frame - seen := by
  obtain ⟨k, rfl⟩ := held
  obtain ⟨i, e, own, same, _, eq⟩ | ⟨missing, j, e, _, free, same, _, eq⟩ | ⟨_, eq⟩ :=
    resolve_cases t other node frame pose proven <;> rw [eq] at gone
  · exfalso
    apply gone
    by_cases here : k = i
    · exact ⟨k, by rw [here, Function.update_self, same, own]⟩
    · exact ⟨k, by rw [Function.update_of_ne here]⟩
  · have here : k = j := by
      by_contra apart
      exact gone ⟨k, by rw [Function.update_of_ne apart]⟩
    subst here
    refine ⟨fun twin => gone ⟨k, ?_⟩, _, known.seen k solid, free.resolve_left solid⟩
    rw [Function.update_self, same, twin]
  · exact absurd ⟨k, rfl⟩ gone

end

/-! The nodes of a dictionary entry. -/

section

variable {m : Memory} {entry tail n : UInt64} {earlier : List (UInt64 × UInt64)} {k : Nat}

end

/-- The record cannot be stored: its row is full of others that were seen just now. -/
def Crowded (t : Table) (record : UInt64) (frame : UInt32) : Prop :=
  ∀ j ∈ rowOf record, (t j).record ≠ 0 ∧ (t j).record ≠ record ∧ frame - (t j).frame < 2

/-- The table after these calls: every record has one entry, a search finds it and nothing
else, a record is stored where its row has room, and it gives way only to another one, two
frames after it was seen. -/
structure KeepsRecords (calls : List TableCall) (t : Table) : Prop where
  single : ∀ i j, (t i).record ≠ 0 → (t i).record = (t j).record → i = j
  own : ∀ record frame i reuse, t.find record frame = (some i, reuse) → (t i).record = record
  found : ∀ i frame, (t i).record ≠ 0 → (t.find (t i).record frame).1 = some i
  recent : ∀ i, (t i).record ≠ 0 → lastSeen (t i).record calls = some (t i).frame
  tick : ∀ i, (t i).record ≠ 0 → some (t.lastFrame (t i).record) = lastSeen (t i).record calls
  stored : ∀ record node frame pose proven, record ≠ 0 →
    Stores t (t.resolve record node frame pose proven).1 record node frame pose ∨ Crowded t record frame
  lost : ∀ call : TableCall, call.Solid → ∀ record, record ≠ 0 → t.Holds record →
    ¬(t.perform call).Holds record → call = .clear ∨
      ∃ other node frame pose proven seen, call = .resolve other node frame pose proven ∧
        other ≠ record ∧ lastSeen record calls = some seen ∧ 2 ≤ frame - seen

theorem Timed.keeps {calls : List TableCall} {t : Table} (known : Timed calls t) :
    KeepsRecords calls t := by
  refine ⟨fun i j => known.tidy.injective, fun record frame i reuse answer => ?_,
    fun i frame held => known.find held frame, known.seen, fun i => known.lastFrame,
    fun record node frame pose proven some_ => ?_, fun call solid record some_ held gone => ?_⟩
  · have found := find_found t record frame
    rw [answer] at found
    cases found with
    | here _ _ own => exact own
  · refine (resolve_stores t record node frame pose proven).imp_right ?_
    rintro ⟨missing, young⟩ j inside
    obtain ⟨held, recent⟩ := young j inside
    exact ⟨held, known.tidy.absent some_ missing, UInt32.not_le.mp recent⟩
  · cases call with
    | resolve other node frame pose proven =>
      obtain ⟨apart, seen, told, old⟩ := known.evicts some_ held gone
      exact .inr ⟨other, node, frame, pose, proven, seen, rfl, apart, told, old⟩
    | taint other frame =>
      obtain ⟨i, rfl⟩ := held
      exact absurd ⟨i, (taint_names t other frame i).1⟩ gone
    | lastFrame other => exact absurd held gone
    | clear => exact .inl rfl

end EdvrPatch.Velocity
