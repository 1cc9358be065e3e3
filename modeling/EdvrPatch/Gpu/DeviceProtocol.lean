import EdvrPatch.Gpu.DeviceTiming

/-! What the four spans are for, read off the record alone: scopes are opened one at a
time and stamped by the frame they belong to, and what is published of a frame was
accepted and, where it is valid, whole. -/
namespace EdvrPatch.Gpu

open Lib

/-- The stamps that the phases have had taken, the last of them still open. -/
def stampsOf (order : List Nat) (openPhase : Option Nat) : List Nat :=
  order.flatMap (fun p => [p * 2, p * 2 + 1]) ++ (openPhase.map (· * 2)).toList

/-- Each of the four phases once, and both transfers before either compose. -/
def WholeFrame (order : List Nat) : Prop :=
  order.Perm [0, 1, 2, 3] ∧
    ∀ before p after, order = before ++ p :: after → 2 ≤ p → 0 ∈ before ∧ 1 ∈ before

structure Scope where
  slot : Fin kSlots
  sequence : Nat
  stamps : List Nat

structure DeviceView where
  current : Nat := 0
  scope : Option Scope := none
  opened : List Nat := []
  uncertain : Bool := false
  closed : Fin kSlots → Option (Nat × List Nat) := fun _ => none
  read : Fin kSlots → Option GpuSpanRawSample := fun _ => none
  accepted : List Nat := []
  last : Nat := 0

/-- Some closed scope of the frame has the stamps of a whole frame, one phase after
the other, and they were read in the order they were issued in. -/
def MeasuredWhole (v : DeviceView) (sequence : Nat) : Prop :=
  ∃ i order raw, v.closed i = some (sequence, stampsOf order none) ∧ WholeFrame order ∧
    v.read i = some raw ∧ ((stampsOf order none).map raw.ticks).Pairwise (· ≤ ·)

def EdvrNativeDeviceGpuSample.TimesZero (sample : EdvrNativeDeviceGpuSample) : Prop :=
  sample.transferMs = (0, 0) ∧ sample.composeMs = (0, 0)

/-- A scope belongs to the frame that is current when it is opened, and no frame has a
second. A failed begin opens none, and after a failed end none is opened. -/
def deviceProtocol : Monitor DeviceView DeviceEvent where
  advance v
    | .driver (.create _ _) => v
    | .driver (.begins i ok) =>
      if ok then
        { v with
          scope := some ⟨i, v.current, []⟩
          opened := v.opened ++ [v.current]
          closed := Function.update v.closed i none, read := Function.update v.read i none }
      else v
    | .driver (.timestamp _ index _) =>
      { v with scope := v.scope.map fun sc => { sc with stamps := sc.stamps ++ [index] } }
    | .driver (.ends i ok) =>
      { v with
        scope := none, uncertain := v.uncertain || !ok
        closed := Function.update v.closed i
          (if ok then v.scope.map fun sc => (sc.sequence, sc.stamps) else none) }
    | .driver (.poll i raw) => { v with read := Function.update v.read i (some raw) }
    | .driver (.destroy i) => { v with closed := Function.update v.closed i none }
    | .frame sequence => { v with current := sequence }
    | .accepted sequence => { v with accepted := v.accepted ++ [sequence] }
    | .invalidated => { v with current := 0 }
    | .published sample => { v with last := sample.sequence }
  allows v
    | .driver (.begins _ _) => v.scope = none ∧ v.current ∉ v.opened ∧ v.uncertain = false
    | .driver (.timestamp i index _) =>
      ∃ stamps, v.scope = some ⟨i, v.current, stamps⟩ ∧ index ∉ stamps
    | .driver (.ends i _) => ∃ sc, v.scope = some sc ∧ sc.slot = i
    | .published sample =>
      v.last < sample.sequence ∧ sample.sequence ∈ v.accepted ∧
        (sample.status = .valid → MeasuredWhole v sample.sequence) ∧
        (sample.status ≠ .valid → sample.TimesZero)
    | _ => True

def NextPhase (order : List Nat) (p : Nat) : Prop :=
  p < 4 ∧ p ∉ order ∧ (2 ≤ p → 0 ∈ order ∧ 1 ∈ order)

def LegalOrder (order : List Nat) : Prop :=
  ∀ before p after, order = before ++ p :: after → NextPhase before p

theorem LegalOrder.nil : LegalOrder [] := by
  intro before p after isSplit
  simp at isSplit

variable {order : List Nat}

theorem LegalOrder.concat {p : Nat} (legal : LegalOrder order) (next : NextPhase order p) :
    LegalOrder (order ++ [p]) := by
  intro before q after isSplit
  rcases List.eq_nil_or_concat after with rfl | ⟨rest, last, rfl⟩
  · obtain ⟨rfl, isLast⟩ := List.append_inj' isSplit rfl
    cases isLast
    exact next
  · rw [List.concat_eq_append, ← List.cons_append, ← List.append_assoc] at isSplit
    exact legal before q rest (List.append_inj' isSplit rfl).1

theorem LegalOrder.nodup (legal : LegalOrder order) : order.Nodup := by
  induction order using List.reverseRecOn with
  | nil => exact List.nodup_nil
  | append_singleton order p ih =>
    have shorter : LegalOrder order := by
      intro before q after isSplit
      apply legal before q (after ++ [p])
      rw [isSplit]
      simp
    rw [List.nodup_append]
    refine ⟨ih shorter, List.nodup_singleton p, ?_⟩
    intro a mem b isLast same
    rw [same, List.mem_singleton.mp isLast] at mem
    exact (legal order p [] rfl).2.1 mem

theorem LegalOrder.whole (legal : LegalOrder order) (all : ∀ p < 4, p ∈ order) :
    WholeFrame order := by
  refine ⟨?_, fun before p after isSplit => (legal before p after isSplit).2.2⟩
  rw [List.perm_ext_iff_of_nodup legal.nodup (by decide)]
  intro p
  constructor
  · intro mem
    obtain ⟨before, after, isSplit⟩ := List.append_of_mem mem
    have small := (legal before p after isSplit).1
    simp
    omega
  · intro mem
    apply all
    simp at mem
    omega

end EdvrPatch.Gpu
