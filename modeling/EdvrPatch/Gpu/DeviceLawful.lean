import EdvrPatch.Gpu.DeviceProtocol

/-! The instrument keeps to its protocol. Between the driver calls of one operation
the slots fit what the record says of them; an open scope is the active slot's, or is
marked to be retired at the next boundary. -/
namespace EdvrPatch.Gpu

open Lib

namespace DeviceGpuTiming

structure Stamped (g : DeviceGpuTiming) (v : DeviceView) (i : Fin kSlots) : Prop where
  scope : v.scope = some ⟨i, g.sequence, stampsOf (g.slots i).order (g.slots i).openPhase⟩
  legal : LegalOrder (g.slots i).order
  next : ∀ p, (g.slots i).openPhase = some p → NextPhase (g.slots i).order p
  sequence : (g.slots i).sequence = g.sequence

/-- One slot. Its scope is open while it is active and until it is retired. -/
structure SlotFits (g : DeviceGpuTiming) (v : DeviceView) (i : Fin kSlots) : Prop where
  scope : (g.slots i).queryOpen = true ↔ ∃ sc, v.scope = some sc ∧ sc.slot = i
  covered : (g.slots i).queryOpen = true → g.active = some i ∨ g.retireMask i = true
  masked : g.active = some i → g.retireMask i = false
  stamped : g.active = some i → Stamped g v i
  pending : (g.slots i).pending = true → (g.slots i).queryOpen = false ∧
    v.closed i = some ((g.slots i).sequence, stampsOf (g.slots i).order none) ∧
    WholeFrame (g.slots i).order
  accepted : (g.slots i).accepted = true → (g.slots i).sequence ∈ v.accepted
  fresh : (g.slots i).pending = false → (g.slots i).queryOpen = false → g.retireMask i = false →
    (g.slots i).order = [] ∧ (g.slots i).openPhase = none ∧ (g.slots i).accepted = false

structure Fits (g : DeviceGpuTiming) (v : DeviceView) : Prop where
  current : v.current = g.sequence
  within : g.sequence ≤ g.lastSequence
  opened : ∀ s ∈ v.opened, 0 < s ∧ s ≤ g.lastSequence
  started : g.sequence ∈ v.opened → g.frameStarted = true
  last : v.last = g.lastPublishedSequence
  uncertain : v.uncertain = true → g.stopped = true
  frame : g.frameAccepted = true → g.sequence ∈ v.accepted
  status : g.frameStatus ≠ .valid
  slot : ∀ i, SlotFits g v i

def view (g : DeviceGpuTiming) : DeviceView := deviceProtocol.after {} g.log

structure Inv (g : DeviceGpuTiming) : Prop where
  lawful : deviceProtocol.Admits {} g.log
  fits : Fits g g.view

variable (answers : Nat → DeviceAnswer) (spanMs : SpanMs) {g g' : DeviceGpuTiming}
  {v v' : DeviceView} {i k : Fin kSlots}

theorem SlotFits.active_open (h : SlotFits g v i) (isActive : g.active = some i) :
    (g.slots i).queryOpen = true :=
  h.scope.mpr ⟨_, (h.stamped isActive).scope, rfl⟩

theorem Stamped.same (h : Stamped g v i) (slot : g'.slots i = g.slots i)
    (sequence : g'.sequence = g.sequence)
    (scope : ∀ sc, sc.slot = i → v.scope = some sc → v'.scope = some sc) : Stamped g' v' i where
  scope := by
    rw [slot, sequence]
    exact scope _ rfl h.scope
  legal := by
    rw [slot]
    exact h.legal
  next := by
    rw [slot]
    exact h.next
  sequence := by
    rw [slot, sequence]
    exact h.sequence

theorem SlotFits.other (h : SlotFits g v k) (slot : g'.slots k = g.slots k)
    (mask : g'.retireMask k = g.retireMask k) (active : g'.active = some k ↔ g.active = some k)
    (sequence : g'.sequence = g.sequence)
    (scope : ∀ sc, sc.slot = k → (v'.scope = some sc ↔ v.scope = some sc))
    (closed : v'.closed k = v.closed k) (accepted : ∀ s ∈ v.accepted, s ∈ v'.accepted) :
    SlotFits g' v' k where
  scope := by
    rw [slot, h.scope]
    constructor
    · rintro ⟨sc, isOpen, isSlot⟩
      exact ⟨sc, (scope sc isSlot).mpr isOpen, isSlot⟩
    · rintro ⟨sc, isOpen, isSlot⟩
      exact ⟨sc, (scope sc isSlot).mp isOpen, isSlot⟩
  covered := by
    rw [slot, mask, active]
    exact h.covered
  masked := by
    rw [mask, active]
    exact h.masked
  stamped := fun isActive =>
    (h.stamped (active.mp isActive)).same slot sequence fun sc isSlot => (scope sc isSlot).mpr
  pending := by
    rw [slot, closed]
    exact h.pending
  accepted := by
    rw [slot]
    intro isAccepted
    exact accepted _ (h.accepted isAccepted)
  fresh := by
    rw [slot, mask]
    exact h.fresh

theorem SlotFits.empty (slot : ∃ b, g.slots i = { allocated := b }) (active : g.active ≠ some i)
    (scope : ∀ sc, v.scope = some sc → sc.slot ≠ i) : SlotFits g v i := by
  obtain ⟨b, slot⟩ := slot
  constructor
  · rw [slot]
    refine ⟨nofun, ?_⟩
    rintro ⟨sc, isOpen, isSlot⟩
    exact absurd isSlot (scope sc isOpen)
  · rw [slot]
    nofun
  · exact fun isActive => absurd isActive active
  · exact fun isActive => absurd isActive active
  · rw [slot]
    nofun
  · rw [slot]
    nofun
  · rw [slot]
    exact fun _ _ _ => ⟨rfl, rfl, rfl⟩

theorem Inv.init : Inv {} where
  lawful := trivial
  fits := {
    current := rfl
    within := Nat.le_refl 0
    opened := nofun
    started := nofun
    last := rfl
    uncertain := nofun
    frame := nofun
    status := nofun
    slot := fun _ => .empty ⟨false, rfl⟩ nofun nofun }

theorem Inv.event (h : Inv g) {e : DeviceEvent} (log : g'.log = g.log ++ [e])
    (allowed : deviceProtocol.allows g.view e) (fits : Fits g' (deviceProtocol.advance g.view e)) :
    Inv g' where
  lawful := by
    rw [log, Monitor.admits_append]
    exact ⟨h.lawful, allowed, trivial⟩
  fits := by
    rw [view, log, Monitor.after_append]
    exact fits

theorem Inv.silent (h : Inv g) (log : g'.log = g.log) (fits : Fits g' g.view) : Inv g' where
  lawful := log ▸ h.lawful
  fits := by
    rw [view, log]
    exact fits

@[simp] theorem setSlot_self (g : DeviceGpuTiming) (i : Fin kSlots) (s : DeviceSlot) :
    (g.setSlot i s).slots i = s := Function.update_self ..

theorem setSlot_other (g : DeviceGpuTiming) (s : DeviceSlot) {i k : Fin kSlots} (other : k ≠ i) :
    (g.setSlot i s).slots k = g.slots k := Function.update_of_ne other ..

/-- The fields that `Fits` reads, besides the slots and the mask, are the same. -/
structure SameFrame (g g' : DeviceGpuTiming) : Prop where
  active : g'.active = g.active
  sequence : g'.sequence = g.sequence
  lastSequence : g'.lastSequence = g.lastSequence
  started : g'.frameStarted = g.frameStarted
  last : g'.lastPublishedSequence = g.lastPublishedSequence
  accepted : g'.frameAccepted = g.frameAccepted
  status : g'.frameStatus = g.frameStatus
  stopped : g.stopped = true → g'.stopped = true

theorem SameFrame.trans {g'' : DeviceGpuTiming} (first : SameFrame g g') (rest : SameFrame g' g'') :
    SameFrame g g'' where
  active := rest.active.trans first.active
  sequence := rest.sequence.trans first.sequence
  lastSequence := rest.lastSequence.trans first.lastSequence
  started := rest.started.trans first.started
  last := rest.last.trans first.last
  accepted := rest.accepted.trans first.accepted
  status := rest.status.trans first.status
  stopped := fun stopped => rest.stopped (first.stopped stopped)

theorem Fits.slots (h : Fits g v) (same : SameFrame g g') (current : v'.current = v.current)
    (opened : v'.opened = v.opened) (last : v'.last = v.last)
    (uncertain : v'.uncertain = true → g'.stopped = true)
    (accepted : v'.accepted = v.accepted) (slot : ∀ i, SlotFits g' v' i) : Fits g' v' where
  current := by rw [current, same.sequence, h.current]
  within := by rw [same.sequence, same.lastSequence]; exact h.within
  opened := by rw [opened, same.lastSequence]; exact h.opened
  started := by rw [opened, same.sequence, same.started]; exact h.started
  last := by rw [last, same.last, h.last]
  uncertain := uncertain
  frame := by rw [accepted, same.accepted, same.sequence]; exact h.frame
  status := by rw [same.status]; exact h.status
  slot := slot

theorem Fits.same (h : Fits g v) (same : SameFrame g g') (slots : g'.slots = g.slots)
    (mask : g'.retireMask = g.retireMask) : Fits g' v :=
  h.slots same rfl rfl rfl (fun uncertain => same.stopped (h.uncertain uncertain)) rfl fun i =>
    (h.slot i).other (by rw [slots]) (by rw [mask]) (by rw [same.active]) same.sequence
      (fun _ _ => Iff.rfl) rfl (fun _ mem => mem)

theorem nowMs_same (g : DeviceGpuTiming) : SameFrame g (g.nowMs answers).2 :=
  ⟨rfl, rfl, rfl, rfl, rfl, rfl, rfl, id⟩

theorem Inv.nowMs (h : Inv g) : Inv (g.nowMs answers).2 :=
  h.silent rfl (h.fits.same (nowMs_same answers g) rfl rfl)

theorem Inv.empties (h : Inv g) (b : Bool) (active : g.active ≠ some i)
    (closed : (g.slots i).queryOpen = false) : Inv (g.setSlot i { allocated := b }) := by
  refine h.silent rfl (h.fits.slots ⟨rfl, rfl, rfl, rfl, rfl, rfl, rfl, id⟩ rfl rfl rfl
    h.fits.uncertain rfl ?_)
  intro k
  by_cases same : k = i
  · subst same
    refine .empty ⟨b, setSlot_self ..⟩ active ?_
    intro sc isOpen isSlot
    have := (h.fits.slot k).scope.mpr ⟨sc, isOpen, isSlot⟩
    rw [closed] at this
    cases this
  · exact (h.fits.slot k).other (setSlot_other g _ same) rfl Iff.rfl rfl (fun _ _ => Iff.rfl) rfl
      fun _ mem => mem

theorem Inv.destroys (h : Inv g) (pending : (g.slots i).pending = false) :
    Inv (g.destroy answers i) := by
  refine h.event rfl trivial (h.fits.slots ⟨rfl, rfl, rfl, rfl, rfl, rfl, rfl, id⟩ rfl rfl rfl
    h.fits.uncertain rfl ?_)
  intro k
  by_cases same : k = i
  · subst same
    obtain ⟨scope, covered, masked, stamped, _, accepted, fresh⟩ := h.fits.slot k
    refine ⟨scope, covered, masked, fun isActive => (stamped isActive).same rfl rfl fun _ _ => id,
      fun isPending => ?_, accepted, fresh⟩
    rw [show ((g.destroy answers k).slots k).pending = false from pending] at isPending
    cases isPending
  · exact (h.fits.slot k).other rfl rfl Iff.rfl rfl (fun _ _ => Iff.rfl)
      (Function.update_of_ne same ..) fun _ mem => mem

theorem Inv.ends (h : Inv g) (active : g.active ≠ some i)
    (isOpen : (g.slots i).queryOpen = true) (ok : Bool) (same : SameFrame g g')
    (log : g'.log = g.log ++ [DeviceEvent.driver (.ends i ok)]) (stopped : ok = false → g'.stopped = true)
    (mask : g'.retireMask = g.retireMask) (slot : g'.slots i = {})
    (others : ∀ k ≠ i, g'.slots k = g.slots k) : Inv g' := by
  obtain ⟨sc, scope, isSlot⟩ := (h.fits.slot i).scope.mp isOpen
  refine h.event log ⟨sc, scope, isSlot⟩ (h.fits.slots same rfl rfl rfl ?_ rfl ?_)
  · intro uncertain
    rcases Bool.or_eq_true_iff.mp uncertain with before | failed
    · exact same.stopped (h.fits.uncertain before)
    · exact stopped (by simpa using failed)
  · intro k
    by_cases isSame : k = i
    · subst isSame
      exact .empty ⟨false, slot⟩ (by rw [same.active]; exact active) nofun
    · refine (h.fits.slot k).other (others k isSame) (by rw [mask]) (by rw [same.active])
        same.sequence ?_ (Function.update_of_ne isSame ..) fun _ mem => mem
      intro other isOther
      refine ⟨nofun, fun isScope => ?_⟩
      rw [scope] at isScope
      cases isScope
      exact absurd (isOther.symm.trans isSlot) isSame

structure Retired (g g' : DeviceGpuTiming) : Prop where
  inv : Inv g'
  same : SameFrame g g'
  mask : ∀ i, g'.retireMask i = false
  slots : ∀ k, g'.slots k = if g.retireMask k = true then {} else g.slots k

def dropped (g : DeviceGpuTiming) : DeviceGpuTiming :=
  match g.active with
  | none => g
  | some i => { g with retireMask := Function.update g.retireMask i true, active := none }

theorem dropped_none (isNone : g.active = none) : g.dropped = g := by
  rw [dropped, isNone]

theorem dropped_some (isActive : g.active = some i) : g.dropped =
    { g with retireMask := Function.update g.retireMask i true, active := none } := by
  rw [dropped, isActive]

theorem Inv.of_dropped (isActive : g.active = some i)
    (h : Inv { g with retireMask := Function.update g.retireMask i true, active := none }) :
    Inv g.dropped := by
  rw [dropped_some isActive]
  exact h

end DeviceGpuTiming

end EdvrPatch.Gpu
