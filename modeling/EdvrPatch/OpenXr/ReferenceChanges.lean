import Mathlib

/-! The changes of the LOCAL reference space (`reference_changes.h`): notifications that
are put in order of time and applied as the frames reach them. -/
namespace EdvrPatch.OpenXr

def XR_TYPE_EVENT_DATA_REFERENCE_SPACE_CHANGE_PENDING : Nat := 40
def XR_REFERENCE_SPACE_TYPE_LOCAL : Nat := 2
def XR_NULL_HANDLE : UInt64 := 0
def XR_FALSE : UInt32 := 0
def XR_TRUE : UInt32 := 1

/-- `next` is the address of the structure that extends the event, null without one. -/
structure ReferenceSpaceChange (Pose : Type) where
  type : Nat
  next : UInt64
  session : UInt64
  referenceSpaceType : Nat
  changeTime : Int
  poseValid : UInt32
  poseInPreviousSpace : Pose

/-- The list holds the entries of the array that count, in their order. -/
structure ReferenceChanges where
  session : UInt64 := XR_NULL_HANDLE
  pending : List Int := []
  epoch : UInt64 := 0
  lastTarget : Int := 0
  advanced : Bool := false
  active : Bool := false
  deriving DecidableEq

namespace ReferenceChanges

variable {Pose : Type} (poseValid : Pose → Bool) (r : ReferenceChanges)

def kCapacity : Nat := 16

def clear : ReferenceChanges := {}

def begin (session : UInt64) : Bool × ReferenceChanges :=
  if r.active ∨ session = XR_NULL_HANDLE then (false, r)
  else (true, { clear with active := true, session := session, epoch := 1 })

/-- The loop moves the later entries up by one, from the last on. -/
def inserted (changeTime : Int) (pending : List Int) : List Int :=
  (pending.reverse.orderedInsert (· ≥ ·) changeTime).reverse

def Malformed (e : ReferenceSpaceChange Pose) : Prop :=
  e.type ≠ XR_TYPE_EVENT_DATA_REFERENCE_SPACE_CHANGE_PENDING ∨ e.next ≠ 0 ∨
    e.poseValid ≠ XR_FALSE ∧ e.poseValid ≠ XR_TRUE

instance (e : ReferenceSpaceChange Pose) : Decidable (Malformed e) :=
  inferInstanceAs (Decidable (_ ∨ _))

def note (e : ReferenceSpaceChange Pose) : Bool × ReferenceChanges :=
  if !r.active then (false, r)
  else if e.session ≠ r.session ∨ e.referenceSpaceType ≠ XR_REFERENCE_SPACE_TYPE_LOCAL then (true, r)
  else if Malformed e then (false, clear)
  else if e.poseValid = XR_TRUE ∧ !poseValid e.poseInPreviousSpace then (false, clear)
  else if r.pending.length = kCapacity then (false, clear)
  else (true, { r with pending := inserted e.changeTime r.pending })

def reached (target : Int) : List Int :=
  r.pending.takeWhile (· ≤ target)

/-- The number of changes that were applied, where the call does not retire the object. -/
def advance (target : Int) : Option Nat × ReferenceChanges :=
  if !r.active ∨ r.advanced ∧ target < r.lastTarget then (none, clear)
  else
    let n := (r.reached target).length
    if n > (0xFFFFFFFFFFFFFFFF - r.epoch).toNat then (none, clear)
    else
      (some n,
        { r with
          epoch := r.epoch + UInt64.ofNat n
          pending := r.pending.drop n
          lastTarget := target
          advanced := true })

def crosses (start stop : Int) : Bool :=
  if !r.active ∨ stop ≤ start then false
  else r.pending.any fun time => start < time && time ≤ stop

/-- `epoch()`, which an object that is not active answers with zero. -/
def epochNow : UInt64 :=
  if r.active then r.epoch else 0

theorem perm_inserted (time : Int) (pending : List Int) :
    (inserted time pending).Perm (time :: pending) := by
  exact (List.reverse_perm _).trans
    ((List.perm_orderedInsert _ _ _).trans ((List.reverse_perm pending).cons time))

theorem sorted_inserted (time : Int) {pending : List Int} (sorted : pending.Pairwise (· ≤ ·)) :
    (inserted time pending).Pairwise (· ≤ ·) := by
  unfold inserted
  rw [List.pairwise_reverse]
  exact (List.pairwise_reverse.mpr sorted).orderedInsert time _

theorem reached_eq_filter {target : Int} {pending : List Int} (sorted : pending.Pairwise (· ≤ ·)) :
    pending.takeWhile (· ≤ target) = pending.filter (· ≤ target) ∧
      pending.drop (pending.takeWhile (· ≤ target)).length = pending.filter (target < ·) := by
  induction pending with
  | nil => exact ⟨rfl, rfl⟩
  | cons time pending ih =>
    obtain ⟨first, sorted⟩ := List.pairwise_cons.mp sorted
    by_cases due : time ≤ target
    · obtain ⟨now, later⟩ := ih sorted
      rw [List.takeWhile_cons_of_pos (by simpa using due), List.filter_cons_of_pos (by simpa using due),
        List.filter_cons_of_neg (by simpa using due), now]
      exact ⟨rfl, by rw [← now]; exact later⟩
    · have after : ∀ t ∈ time :: pending, target < t := by
        intro t member
        rcases List.mem_cons.mp member with rfl | member
        · omega
        · have := first t member
          omega
      rw [List.takeWhile_cons_of_neg (by simpa using due), List.length_nil, List.drop_zero,
        List.filter_eq_nil_iff.mpr fun t member => by have := after t member; simp; omega,
        List.filter_eq_self.mpr fun t member => by simpa using after t member]
      exact ⟨rfl, rfl⟩

end ReferenceChanges

end EdvrPatch.OpenXr
