import EdvrPatch.Gpu.DeviceLawful

/-! Each operation of the instrument keeps to the protocol, and so does every order
of them. -/
namespace EdvrPatch.Gpu

open Lib

namespace DeviceGpuTiming

variable (answers : Nat → DeviceAnswer) (spanMs : SpanMs) {g g' : DeviceGpuTiming}
  {v v' : DeviceView} {i k : Fin kSlots}

theorem SlotFits.marks (h : SlotFits g v k) (slots : g'.slots = g.slots)
    (sequence : g'.sequence = g.sequence)
    (mask : g.retireMask k = true → g'.retireMask k = true)
    (active : g'.active = some k → g.active = some k ∧ g'.retireMask k = false)
    (given : g.active = some k → g'.active = some k ∨ g'.retireMask k = true) : SlotFits g' v k where
  scope := by
    rw [slots]
    exact h.scope
  covered := by
    rw [slots]
    intro isOpen
    rcases h.covered isOpen with isActive | marked
    · exact given isActive
    · exact .inr (mask marked)
  masked := fun isActive => (active isActive).2
  stamped := fun isActive =>
    (h.stamped (active isActive).1).same (by rw [slots]) sequence fun _ _ => id
  pending := by
    rw [slots]
    exact h.pending
  accepted := by
    rw [slots]
    exact h.accepted
  fresh := by
    rw [slots]
    intro isPending isClosed unmarked
    apply h.fresh isPending isClosed
    by_contra marked
    rw [mask (by simpa using marked)] at unmarked
    cases unmarked

theorem Fits.dropped (h : Fits g v) : Fits g.dropped v := by
  cases active : g.active with
  | none =>
    rw [dropped_none active]
    exact h
  | some i =>
    rw [dropped_some active]
    refine ⟨h.current, h.within, h.opened, h.started, h.last, h.uncertain, h.frame, h.status,
      fun k => (h.slot k).marks rfl rfl ?_ nofun ?_⟩
    · intro marked
      by_cases same : k = i
      · rw [same]
        exact Function.update_self ..
      · exact (Function.update_of_ne same ..).trans marked
    · intro isActive
      rw [active] at isActive
      cases isActive
      exact .inr (Function.update_self ..)

theorem Inv.dropped (h : Inv g) : Inv g.dropped := by
  refine h.silent ?_ h.fits.dropped
  unfold DeviceGpuTiming.dropped
  split
  · rfl
  · rfl

theorem Fits.frames (h : Fits g v) (active : g.active = none) (slots : g'.slots = g.slots)
    (mask : g'.retireMask = g.retireMask) (active' : g'.active = none)
    (scope : ∀ k, (∃ sc, v'.scope = some sc ∧ sc.slot = k) ↔ ∃ sc, v.scope = some sc ∧ sc.slot = k)
    (closed : v'.closed = v.closed) (accepted : ∀ s ∈ v.accepted, s ∈ v'.accepted)
    (k : Fin kSlots) : SlotFits g' v' k := by
  obtain ⟨isScope, covered, _, _, pending, isAccepted, fresh⟩ := h.slot k
  constructor
  · rw [slots, scope]
    exact isScope
  · rw [slots, active', mask, ← active]
    exact covered
  · rw [active']
    nofun
  · rw [active']
    nofun
  · rw [slots, closed]
    exact pending
  · rw [slots]
    exact fun marked => accepted _ (isAccepted marked)
  · rw [slots, mask]
    exact fresh

theorem Inv.stamps_allowed (h : Inv g) (isActive : g.active = some i) {index : Nat} (ok : Bool)
    (unused : index ∉ stampsOf (g.slots i).order (g.slots i).openPhase) :
    deviceProtocol.allows g.view (.driver (.timestamp i index ok)) := by
  have stamped := (h.fits.slot i).stamped isActive
  refine ⟨_, ?_, unused⟩
  rw [stamped.scope, h.fits.current]

theorem SlotFits.beside (h : SlotFits g v k) (isActive : g.active = some i)
    (scope : ∃ sc, v.scope = some sc ∧ sc.slot = i) (other : k ≠ i)
    (slot : g'.slots k = g.slots k) (mask : g'.retireMask k = g.retireMask k)
    (active : g'.active ≠ some k) (sequence : g'.sequence = g.sequence)
    (scope' : ∀ sc, v'.scope = some sc → sc.slot = i) (closed : v'.closed k = v.closed k)
    (accepted : v'.accepted = v.accepted) : SlotFits g' v' k := by
  refine h.other slot mask ⟨fun isSame => absurd isSame active, fun isSame => ?_⟩ sequence ?_ closed ?_
  · rw [isActive] at isSame
    cases isSame
    exact absurd rfl other
  · intro sc isSlot
    constructor
    · intro isOpen
      exact absurd (isSlot.symm.trans (scope' sc isOpen)) other
    · intro isOpen
      obtain ⟨own, isOwn, ownSlot⟩ := scope
      rw [isOpen] at isOwn
      cases isOwn
      exact absurd (isSlot.symm.trans ownSlot) other
  · rw [accepted]
    exact fun _ mem => mem

theorem Inv.refused (h : Inv g) (isActive : g.active = some i) {index : Nat}
    (unused : index ∉ stampsOf (g.slots i).order (g.slots i).openPhase) :
    Inv (g.issue answers (.timestamp i index)).2.dropped := by
  have fits := h.fits.dropped
  rw [dropped_some isActive] at fits
  refine .of_dropped isActive (h.event rfl (h.stamps_allowed isActive _ unused) ⟨fits.current, fits.within, fits.opened,
    fits.started, fits.last, fits.uncertain, fits.frame, fits.status, ?_⟩)
  refine fits.frames rfl rfl rfl rfl (fun k => ?_) rfl fun _ mem => mem
  simp [deviceProtocol, Option.map_eq_some_iff]

theorem Inv.stamps (h : Inv g) (isActive : g.active = some i) {index : Nat} {order : List Nat}
    {openPhase : Option Nat}
    (unused : index ∉ stampsOf (g.slots i).order (g.slots i).openPhase)
    (taken : stampsOf order openPhase = stampsOf (g.slots i).order (g.slots i).openPhase ++ [index])
    (legal : LegalOrder order) (next : ∀ p, openPhase = some p → NextPhase order p) :
    Inv ((g.issue answers (.timestamp i index)).2.setSlot i
      { g.slots i with order := order, openPhase := openPhase }) := by
  have stamped := (h.fits.slot i).stamped isActive
  have isOpen := (h.fits.slot i).active_open isActive
  have scope : (deviceProtocol.advance g.view (.driver (.timestamp i index (answers g.asked).ok))).scope
      = some ⟨i, g.sequence, stampsOf order openPhase⟩ := by
    simp [deviceProtocol, stamped.scope, taken]
  refine h.event rfl (h.stamps_allowed isActive _ unused) (h.fits.slots
    ⟨rfl, rfl, rfl, rfl, rfl, rfl, rfl, id⟩ rfl rfl rfl h.fits.uncertain rfl fun k => ?_)
  by_cases same : k = i
  · subst same
    obtain ⟨_, covered, masked, _, pending, accepted, _⟩ := h.fits.slot k
    refine ⟨?_, ?_, masked, fun _ => ⟨?_, ?_, ?_, ?_⟩, ?_, ?_, ?_⟩
    · rw [setSlot_self]
      exact ⟨fun _ => ⟨_, scope, rfl⟩, fun _ => isOpen⟩
    · exact fun _ => .inl isActive
    · rw [setSlot_self]
      exact scope
    · rw [setSlot_self]
      exact legal
    · rw [setSlot_self]
      exact next
    · rw [setSlot_self]
      exact stamped.sequence
    · rw [setSlot_self]
      intro isPending
      rw [(pending isPending).1] at isOpen
      cases isOpen
    · rw [setSlot_self]
      exact accepted
    · rw [setSlot_self]
      intro _ isClosed
      rw [show (g.slots k).queryOpen = false from isClosed] at isOpen
      cases isOpen
  · refine (h.fits.slot k).beside isActive ⟨_, stamped.scope, rfl⟩ same (setSlot_other _ _ same) rfl
      ?_ rfl ?_ rfl rfl
    · intro isSame
      exact same (Option.some.inj (isSame.symm.trans isActive))
    · intro sc isScope
      rw [scope] at isScope
      cases isScope
      rfl

theorem Inv.closes (h : Inv g) (isActive : g.active = some i) {ok : Bool} {s : DeviceSlot}
    (log : g'.log = g.log ++ [DeviceEvent.driver (.ends i ok)]) (same : SameFrame g { g' with active := g.active })
    (active : g'.active = none) (stopped : ok = false → g'.stopped = true)
    (slot : g'.slots i = s) (others : ∀ k ≠ i, g'.slots k = g.slots k ∧ g'.retireMask k = g.retireMask k)
    (isClosed : s.queryOpen = false) (sequence : s.sequence = (g.slots i).sequence)
    (accepted : s.accepted = (g.slots i).accepted)
    (outcome : g'.retireMask i = true ∧ s.pending = false ∨ s.pending = true ∧ ok = true ∧
      (g.slots i).openPhase = none ∧ s.order = (g.slots i).order ∧ WholeFrame s.order) : Inv g' := by
  have stamped := (h.fits.slot i).stamped isActive
  refine h.event log ⟨_, stamped.scope, rfl⟩ ?_
  have fits := h.fits
  refine ⟨?_, ?_, ?_, ?_, ?_, ?_, ?_, ?_, fun k => ?_⟩
  · exact fits.current.trans same.sequence.symm
  · rw [show g'.sequence = g.sequence from same.sequence, show g'.lastSequence = _ from same.lastSequence]
    exact fits.within
  · rw [show g'.lastSequence = _ from same.lastSequence]
    exact fits.opened
  · rw [show g'.sequence = g.sequence from same.sequence, show g'.frameStarted = _ from same.started]
    exact fits.started
  · exact fits.last.trans same.last.symm
  · intro uncertain
    rcases Bool.or_eq_true_iff.mp uncertain with before | failed
    · exact same.stopped (fits.uncertain before)
    · exact stopped (by simpa using failed)
  · rw [show g'.sequence = g.sequence from same.sequence, show g'.frameAccepted = _ from same.accepted]
    exact fits.frame
  · rw [show g'.frameStatus = _ from same.status]
    exact fits.status
  · by_cases isSame : k = i
    · subst isSame
      refine ⟨?_, ?_, ?_, ?_, ?_, ?_, ?_⟩
      · rw [slot, isClosed]
        exact ⟨nofun, nofun⟩
      · rw [slot, isClosed]
        nofun
      · rw [active]
        nofun
      · rw [active]
        nofun
      · rw [slot]
        intro isPending
        rcases outcome with ⟨_, idle⟩ | ⟨_, isOk, isClosedPhase, order, whole⟩
        · rw [idle] at isPending
          cases isPending
        · refine ⟨isClosed, ?_, whole⟩
          simp [deviceProtocol, isOk, stamped.scope, isClosedPhase, order, sequence, stamped.sequence]
      · rw [slot, sequence, accepted]
        exact (fits.slot k).accepted
      · rw [slot]
        intro idle _ unmarked
        rcases outcome with ⟨marked, _⟩ | ⟨isPending, _⟩
        · rw [marked] at unmarked
          cases unmarked
        · rw [isPending] at idle
          cases idle
    · refine (fits.slot k).beside isActive ⟨_, stamped.scope, rfl⟩ isSame (others k isSame).1
        (others k isSame).2 ?_ same.sequence nofun (Function.update_of_ne isSame ..) rfl
      rw [active]
      nofun

structure Ready (g : DeviceGpuTiming) (i : Fin kSlots) : Prop where
  inv : Inv g
  active : g.active = none
  mask : ∀ k, g.retireMask k = false
  idle : (g.slots i).pending = false
  stopped : g.stopped = false
  sequence : g.sequence ≠ 0
  unopened : g.sequence ∉ g.view.opened
  started : g.frameStarted = true

theorem Ready.closed (ready : Ready g i) (k : Fin kSlots) : (g.slots k).queryOpen = false := by
  by_contra isOpen
  rcases (ready.inv.fits.slot k).covered (by simpa using isOpen) with isActive | marked
  · rw [ready.active] at isActive
    cases isActive
  · rw [ready.mask k] at marked
    cases marked

theorem Ready.scope (ready : Ready g i) : g.view.scope = none := by
  cases isOpen : g.view.scope with
  | none => rfl
  | some sc =>
    have := (ready.inv.fits.slot sc.slot).scope.mpr ⟨sc, isOpen, rfl⟩
    rw [ready.closed] at this
    cases this

theorem Ready.allowed (ready : Ready g i) (ok : Bool) :
    deviceProtocol.allows g.view (.driver (.begins i ok)) := by
  refine ⟨ready.scope, ?_, ?_⟩
  · rw [ready.inv.fits.current]
    exact ready.unopened
  · by_contra uncertain
    have := ready.inv.fits.uncertain (by simpa using uncertain)
    rw [ready.stopped] at this
    cases this

theorem Fits.asks (h : Fits g v) (call : Bool → DeviceCall) : Fits (g.issue answers call).2 v :=
  h.same ⟨rfl, rfl, rfl, rfl, rfl, rfl, rfl, id⟩ rfl rfl

theorem Ready.creates (ready : Ready g i) : Ready (g.issue answers (.create i)).2 i := by
  have view : (g.issue answers (.create i)).2.view = g.view := by
    rw [DeviceGpuTiming.view, issue, Monitor.after_append]
    rfl
  obtain ⟨inv, active, mask, idle, stopped, sequence, unopened, started⟩ := ready
  refine ⟨inv.event rfl trivial (inv.fits.asks answers _), active, mask, idle, stopped, sequence, ?_,
    started⟩
  rw [view]
  exact unopened

theorem Ready.opens (ready : Ready g i) (log : g'.log = g.log ++ [DeviceEvent.driver (.begins i true)])
    (same : SameFrame { g with active := some i } g') (mask : g'.retireMask = g.retireMask)
    (slot : g'.slots i = { g.slots i with sequence := g.sequence, queryOpen := true })
    (others : ∀ k ≠ i, g'.slots k = g.slots k) : Inv g' := by
  have fits := ready.inv.fits
  obtain ⟨order, openPhase, accepted⟩ := (fits.slot i).fresh ready.idle (ready.closed i) (ready.mask i)
  have current : g'.sequence = g.sequence := same.sequence
  have last : g'.lastSequence = g.lastSequence := same.lastSequence
  have active : g'.active = some i := same.active
  refine ready.inv.event log (ready.allowed true) ⟨?_, ?_, ?_, ?_, ?_, ?_, ?_, ?_, fun k => ?_⟩
  · exact fits.current.trans current.symm
  · rw [current, last]
    exact fits.within
  · intro s mem
    rw [last]
    rcases List.mem_append.mp mem with before | new
    · exact fits.opened s before
    · rw [List.mem_singleton.mp new, fits.current]
      exact ⟨Nat.pos_of_ne_zero ready.sequence, fits.within⟩
  · exact fun _ => same.started.trans ready.started
  · exact fits.last.trans same.last.symm
  · exact fun uncertain => same.stopped (fits.uncertain uncertain)
  · rw [current, show g'.frameAccepted = _ from same.accepted]
    exact fits.frame
  · rw [show g'.frameStatus = _ from same.status]
    exact fits.status
  · by_cases isSame : k = i
    · subst isSame
      refine ⟨?_, ?_, ?_, fun _ => ⟨?_, ?_, ?_, ?_⟩, ?_, ?_, ?_⟩
      · rw [slot]
        exact ⟨fun _ => ⟨_, rfl, rfl⟩, fun _ => rfl⟩
      · exact fun _ => .inl active
      · intro _
        rw [mask]
        exact ready.mask k
      · rw [slot, current, ← fits.current]
        simp [deviceProtocol, order, openPhase, stampsOf]
      · rw [slot]
        simp only [order]
        exact LegalOrder.nil
      · rw [slot]
        simp only [openPhase]
        rintro _ ⟨⟩
      · rw [slot, current]
      · rw [slot]
        intro isPending
        cases ready.idle.symm.trans (show (g.slots k).pending = true from isPending)
      · rw [slot]
        simp only [accepted]
        rintro ⟨⟩
      · rw [slot]
        rintro _ ⟨⟩
    · refine (fits.slot k).other (others k isSame) (by rw [mask]) ?_ current ?_
        (Function.update_of_ne isSame ..) fun _ mem => mem
      · rw [active, ready.active]
        exact iff_of_false (fun isActive => isSame (Option.some.inj isActive).symm)
          (Option.some_ne_none k).symm
      · intro sc isSlot
        rw [ready.scope]
        refine iff_of_false (fun isScope => ?_) (Option.some_ne_none sc).symm
        cases Option.some.inj isScope
        exact absurd isSlot.symm isSame

end DeviceGpuTiming

end EdvrPatch.Gpu
