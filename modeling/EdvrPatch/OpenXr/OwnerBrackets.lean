import EdvrPatch.OpenXr.CyclePartition

/-! The owner's time at the end of a frame, bracket by bracket. The account keeps one
pending time outside the cycle in progress, and a cycle that completes takes what is
pending. -/
namespace EdvrPatch.OpenXr

open Lib FrameCycle

namespace FrameCycleStats

def opens (t : FrameCycleStats) : CycleCall → Bool
  | .waitCallerEnd token _ tick _ thread _ ok =>
    !(!ok || token == 0 || t.wait.token != token || !t.wait.isOpen ||
      !decide (ordered t.wait.beginUs t.wait.ownerBegin t.wait.ownerEnd tick) ||
      thread != t.wait.thread)
  | _ => false

/-- The call changes no pending time and no pending begin, and activates no cycle. -/
structure Quiet (t u : FrameCycleStats) : Prop where
  pending : u.pendingFrameEndOwnerMs = t.pendingFrameEndOwnerMs
  begun : u.pendingFrameEndOwnerBegin = t.pendingFrameEndOwnerBegin
  active : u.current.active = true → t.current.active = true

namespace Quiet

variable {t u v : FrameCycleStats}

theorem refl (t : FrameCycleStats) : Quiet t t := ⟨rfl, rfl, id⟩

theorem trans (first : Quiet t u) (second : Quiet u v) : Quiet t v :=
  ⟨second.pending.trans first.pending, second.begun.trans first.begun, fun active => first.active (second.active active)⟩

theorem note (m : Missing) (t : FrameCycleStats) : Quiet t (t.note m) := ⟨rfl, rfl, id⟩

theorem bad (m : Missing) (t : FrameCycleStats) : Quiet t (t.bad m) :=
  ⟨rfl, rfl, fun active => absurd active Bool.false_ne_true⟩

theorem observeWaitThread (thread : UInt32) (t : FrameCycleStats) :
    Quiet t (t.observeWaitThread thread) := by
  unfold FrameCycleStats.observeWaitThread
  split
  · exact ⟨rfl, rfl, id⟩
  split
  · exact ⟨rfl, rfl, id⟩
  · exact .refl t

theorem observeSubmitThread (thread : UInt32) (t : FrameCycleStats) :
    Quiet t (t.observeSubmitThread thread) := by
  unfold FrameCycleStats.observeSubmitThread
  split
  · exact ⟨rfl, rfl, id⟩
  split
  · exact ⟨rfl, rfl, id⟩
  · exact .refl t

theorem waitCallerBegin (tick : UInt64) (thread : UInt32) (trace : Option PresentTrace)
    (t : FrameCycleStats) : Quiet t (t.waitCallerBegin tick thread trace) := by
  unfold FrameCycleStats.waitCallerBegin
  dsimp only
  have enabled : Quiet t { t with enabled := true } := ⟨rfl, rfl, id⟩
  have observed := enabled.trans (observeWaitThread thread _)
  generalize FrameCycleStats.observeWaitThread _ thread = u at observed
  split
  · exact observed.trans (note _ u)
  split
  · obtain ⟨invalid, sync, post, valid, why, single, presentBegin, presentEnd, isAccount, -⟩ :=
      accountPost_spec { u.current with
        afterSecond := tick - u.current.submitReturn 1, afterSecondReady := true } trace tick
    rw [isAccount]
    exact observed.trans ⟨rfl, rfl, id⟩
  · exact observed.trans ⟨rfl, rfl, id⟩

theorem waitOwnerBegin (token tick : UInt64) (t : FrameCycleStats) :
    Quiet t (t.waitOwnerBegin token tick) := by
  unfold FrameCycleStats.waitOwnerBegin
  split
  · exact ⟨rfl, rfl, id⟩
  · exact note _ t

theorem waitOwnerEnd (token tick : UInt64) (t : FrameCycleStats) :
    Quiet t (t.waitOwnerEnd token tick) := by
  unfold FrameCycleStats.waitOwnerEnd
  split
  · exact ⟨rfl, rfl, id⟩
  · exact note _ t

theorem submitCallerBegin (eye : Nat) (tick : UInt64) (thread : UInt32) (t : FrameCycleStats) :
    Quiet t (t.submitCallerBegin eye tick thread) := by
  unfold FrameCycleStats.submitCallerBegin
  dsimp only
  have observed := observeSubmitThread thread t
  generalize t.observeSubmitThread thread = u at observed
  split
  · exact observed.trans (note _ u)
  split
  · exact observed.trans (bad _ u)
  split
  · exact observed.trans (bad _ u)
  · refine observed.trans ⟨rfl, rfl, fun active => ?_⟩
    split at active
    · exact active
    · exact active

theorem submitOwnerBegin (token tick : UInt64) (t : FrameCycleStats) :
    Quiet t (t.submitOwnerBegin token tick) := by
  unfold FrameCycleStats.submitOwnerBegin
  split
  · exact ⟨rfl, rfl, id⟩
  · exact note _ t

theorem submitOwnerEnd (token tick : UInt64) (t : FrameCycleStats) :
    Quiet t (t.submitOwnerEnd token tick) := by
  unfold FrameCycleStats.submitOwnerEnd
  split
  · exact ⟨rfl, rfl, id⟩
  · exact note _ t

theorem submitCallerEnd (token : UInt64) (eye : Nat) (sequence tick : UInt64) (thread : UInt32)
    (renderParkMs : Option ℚ) (ok : Bool) (t : FrameCycleStats) :
    Quiet t (t.submitCallerEnd token eye sequence tick thread renderParkMs ok) := by
  unfold FrameCycleStats.submitCallerEnd
  dsimp only
  split
  · exact bad _ t
  split
  · exact bad _ t
  split
  · exact bad _ t
  · exact ⟨rfl, rfl, id⟩

theorem noteHandoff (beginUs endUs sequence : UInt64) (thread : UInt32) (ok : Bool)
    (t : FrameCycleStats) : Quiet t (t.noteHandoff beginUs endUs sequence thread ok) := by
  unfold FrameCycleStats.noteHandoff
  dsimp only
  split
  · split
    · exact ⟨rfl, rfl, id⟩
    · exact ⟨rfl, rfl, id⟩
  split
  · exact ⟨rfl, rfl, id⟩
  split
  · exact ⟨rfl, rfl, id⟩
  split
  · exact ⟨rfl, rfl, id⟩
  · exact ⟨rfl, rfl, id⟩

end Quiet

theorem closeCycle_takes (t : FrameCycleStats) (tick nowMs : UInt64) (thread : UInt32) (shape : Shape) :
    ∀ s ∈ (t.closeCycle tick nowMs thread shape).2,
      t.current.active = true ∧ s.frameEndOwnerBody = t.pendingFrameEndOwnerMs := by
  intro s member
  unfold closeCycle at member
  split at member
  · cases member
  split at member
  · rename_i active
    refine ⟨active, ?_⟩
    unfold finishCurrent at member
    split at member
    · cases member
    split at member
    · cases member
    dsimp only at member
    split at member
    · cases member
    split at member
    · cases List.mem_singleton.mp member
      rfl
    · cases member
  · cases member

theorem dropWait_current (t : FrameCycleStats) (token : UInt64) : (t.dropWait token).current = t.current := by
  unfold dropWait
  split
  · rfl
  · rfl

theorem advanceWindow_begun (t : FrameCycleStats) (nowMs : UInt64) (shape : Shape) (sequence : UInt64) :
    (t.advanceWindow nowMs shape sequence).pendingFrameEndOwnerBegin = t.pendingFrameEndOwnerBegin := by
  have report (t : FrameCycleStats) (last now : UInt64) :
      (t.makeReport last now).pendingFrameEndOwnerBegin = t.pendingFrameEndOwnerBegin := by
    rfl
  unfold advanceWindow
  split
  · rfl
  split
  · exact report (t.note .badClock) t.lastAttemptedSequence nowMs
  split
  · exact report t t.lastAttemptedSequence nowMs
  · rfl

theorem dropWait_begun (t : FrameCycleStats) (token : UInt64) :
    (t.dropWait token).pendingFrameEndOwnerBegin = t.pendingFrameEndOwnerBegin := by
  unfold dropWait
  split
  · rfl
  · rfl

theorem waitCallerEnd_cases (t : FrameCycleStats) (token sequence tick nowMs : UInt64) (thread : UInt32)
    (shape : Shape) (ok : Bool) :
    (∀ s ∈ (t.waitCallerEnd token sequence tick nowMs thread shape ok).2,
      t.opens (.waitCallerEnd token sequence tick nowMs thread shape ok) = true ∧
        t.current.active = true ∧ s.frameEndOwnerBody = t.pendingFrameEndOwnerMs) ∧
    (t.opens (.waitCallerEnd token sequence tick nowMs thread shape ok) = false →
      (t.waitCallerEnd token sequence tick nowMs thread shape ok).1.current.active = false ∧
      (t.waitCallerEnd token sequence tick nowMs thread shape ok).1.pendingFrameEndOwnerBegin =
        t.pendingFrameEndOwnerBegin) := by
  unfold waitCallerEnd
  dsimp only
  split
  · refine ⟨fun _ none => (nomatch none), fun _ => ⟨?_, ?_⟩⟩
    · rw [dropWait_current]
      rfl
    · rw [dropWait_begun]
      exact advanceWindow_begun _ _ _ _
  · rename_i fits
    have holds : t.opens (.waitCallerEnd token sequence tick nowMs thread shape ok) = true := by
      change ¬(_ ∨ _ ∨ t.wait.token ≠ token ∨ ¬t.wait.isOpen ∨
        ¬ordered t.wait.beginUs t.wait.ownerBegin t.wait.ownerEnd tick ∨ thread ≠ t.wait.thread) at fits
      unfold opens
      simp only [not_or, not_not] at fits
      simp [fits]
    refine ⟨fun s member => ⟨holds, t.forgetCompleted.closeCycle_takes tick nowMs thread shape s member⟩,
      fun missing => ?_⟩
    rw [holds] at missing
    cases missing

end FrameCycleStats

namespace CycleCall

/-- The begin that awaits its end, read off the calls: the first one since the last end. -/
def awaits (begun : UInt64) : CycleCall → UInt64
  | .frameEndOwnerBegin tick => if begun = 0 then tick else begun
  | .frameEndOwnerEnd tick => if tick < begun then begun else 0
  | .reset _ => 0
  | _ => begun

def bracket (begun : UInt64) : CycleCall → List ℚ
  | .frameEndOwnerEnd tick => if begun = 0 ∨ tick < begun then [] else [toMs (tick - begun)]
  | _ => []

def endsOwner : CycleCall → Bool
  | .frameEndOwnerEnd _ => true
  | _ => false

end CycleCall

/-- A cycle's own brackets, from the ticks of the calls made in it, whether an end was
among them, and what was pending and left open when it opened. -/
structure OwnedCycle where
  atOpen : ℚ := 0
  leftOpen : UInt64 := 0
  ended : Bool := false
  brackets : List ℚ := []

/-- The account with the cycle in progress, and the begin of that cycle that awaits its
end. -/
structure Tally where
  stats : FrameCycleStats := {}
  cycle : OwnedCycle := {}
  begun : UInt64 := 0

structure OwnedSample extends OwnedCycle where
  sample : Sample

/-- No begin was left open when the cycle opened, or no end has come to close it. -/
def OwnedCycle.Settled (c : OwnedCycle) : Prop := c.leftOpen = 0 ∨ c.ended = false

/-- None of the brackets but the last took time, and without one nothing was left over. -/
structure OwnedCycle.Clean (c : OwnedCycle) : Prop where
  earlier : ∀ ms ∈ c.brackets.dropLast, ms = 0
  leftOver : c.brackets = [] → c.atOpen = 0

def Tally.call (t : Tally) (call : CycleCall) : Tally × List OwnedSample :=
  let (stats, admitted) := t.stats.call call
  ({ stats
     begun := if t.stats.opens call then 0 else call.awaits t.begun
     cycle :=
      if t.stats.opens call then
        { atOpen := stats.pendingFrameEndOwnerMs, leftOpen := stats.pendingFrameEndOwnerBegin }
      else { t.cycle with
        ended := t.cycle.ended || call.endsOwner
        brackets := t.cycle.brackets ++ call.bracket t.begun } },
    admitted.map fun sample => { t.cycle with sample })

/-- What is pending in a cycle is its last bracket, or what was left over; and the begin
that is pending is the cycle's own, where none was left open. -/
structure Tally.Held (t : Tally) : Prop where
  pending : t.stats.current.active = true → t.cycle.Settled →
    t.stats.pendingFrameEndOwnerMs = t.cycle.brackets.getLast?.getD t.cycle.atOpen
  begun : t.cycle.leftOpen = 0 → t.begun = t.stats.pendingFrameEndOwnerBegin
  positive : ∀ ms ∈ t.cycle.brackets, 0 ≤ ms

namespace Tally.Held

variable {t : Tally}

theorem goesOn (held : t.Held) {u : FrameCycleStats} {begun : UInt64}
    (pending : u.current.active = true → t.stats.current.active = true ∧
      u.pendingFrameEndOwnerMs = t.stats.pendingFrameEndOwnerMs)
    (same : t.cycle.leftOpen = 0 → begun = u.pendingFrameEndOwnerBegin) :
    ({ stats := u, begun, cycle := { t.cycle with
        ended := t.cycle.ended || false, brackets := t.cycle.brackets ++ [] } } : Tally).Held where
  pending active settled := by
    rw [List.append_nil]
    rw [OwnedCycle.Settled, Bool.or_false] at settled
    exact (pending active).2.trans (held.pending (pending active).1 settled)
  begun := same
  positive := by
    rw [List.append_nil]
    exact held.positive

theorem quiet (held : t.Held) {u : FrameCycleStats} (quiet : t.stats.Quiet u) :
    ({ stats := u, begun := t.begun, cycle := { t.cycle with
        ended := t.cycle.ended || false, brackets := t.cycle.brackets ++ [] } } : Tally).Held :=
  held.goesOn (fun active => ⟨quiet.active active, quiet.pending⟩)
    fun none => (held.begun none).trans quiet.begun.symm

theorem ownerEnd (held : t.Held) (tick : UInt64) : (t.call (.frameEndOwnerEnd tick)).1.Held := by
  have ends : (t.call (.frameEndOwnerEnd tick)).1 =
      { stats := t.stats.frameEndOwnerEnd tick, begun := if tick < t.begun then t.begun else 0
        cycle := { t.cycle with
          ended := t.cycle.ended || true
          brackets := t.cycle.brackets ++ CycleCall.bracket t.begun (.frameEndOwnerEnd tick) } } := rfl
  have positive : ∀ ms ∈ CycleCall.bracket t.begun (.frameEndOwnerEnd tick), 0 ≤ ms := by
    unfold CycleCall.bracket
    dsimp only
    split
    · exact fun _ none => absurd none List.not_mem_nil
    · intro ms new
      rw [List.mem_singleton.mp new]
      exact toMs_nonneg _
  rw [ends]
  refine ⟨fun active settled => ?_, fun none => ?_, fun ms member => ?_⟩
  · -- An end in the cycle: none was left open, and the pending begin is the cycle's own.
    have none : t.cycle.leftOpen = 0 := by
      rw [OwnedCycle.Settled, Bool.or_true] at settled
      exact settled.resolve_right Bool.noConfusion
    have own := held.begun none
    unfold FrameCycleStats.frameEndOwnerEnd CycleCall.bracket at active ⊢
    rw [own]
    dsimp only at active ⊢
    split
    · rename_i idle
      rw [if_pos idle] at active
      rw [List.append_nil]
      exact held.pending active (.inl none)
    · rw [List.getLast?_concat]
      rfl
  · have own := held.begun none
    unfold FrameCycleStats.frameEndOwnerEnd
    rw [own]
    by_cases early : tick < t.stats.pendingFrameEndOwnerBegin
    · rw [if_pos early, if_pos (.inr early)]
    · rw [if_neg early]
      split
      · rename_i idle
        exact (idle.resolve_right early).symm
      · rfl
  · exact (List.mem_append.mp member).elim (held.positive ms) (positive ms)

theorem call (held : t.Held) (call : CycleCall) : (t.call call).1.Held := by
  cases call with
  | enabled => exact held.quiet ⟨rfl, rfl, id⟩
  | reset why => exact held.goesOn (fun active => absurd active Bool.false_ne_true) fun _ => rfl
  | waitCallerBegin tick thread trace => exact held.quiet (.waitCallerBegin tick thread trace t.stats)
  | waitOwnerBegin token tick => exact held.quiet (.waitOwnerBegin token tick t.stats)
  | waitOwnerEnd token tick => exact held.quiet (.waitOwnerEnd token tick t.stats)
  | frameEndOwnerBegin tick =>
    have same : t.stats.frameEndOwnerBegin tick = { t.stats with
        pendingFrameEndOwnerBegin :=
          if t.stats.pendingFrameEndOwnerBegin = 0 then tick else t.stats.pendingFrameEndOwnerBegin } := by
      unfold FrameCycleStats.frameEndOwnerBegin
      by_cases none : t.stats.pendingFrameEndOwnerBegin = 0
      · rw [if_pos none]
        split
        · rfl
        · rename_i fails
          obtain rfl : tick = 0 := by simpa [none] using fails
          rw [← none]
      · rw [if_neg none, if_neg fun fits => none fits.2]
    refine held.goesOn (u := t.stats.frameEndOwnerBegin tick) (fun active => ?_) fun none => ?_
    · rw [same] at active ⊢
      exact ⟨active, rfl⟩
    · rw [same, CycleCall.awaits, held.begun none]
      rfl
  | frameEndOwnerEnd tick => exact held.ownerEnd tick
  | waitCallerEnd token sequence tick nowMs thread shape ok =>
    obtain ⟨-, idle⟩ :=
      t.stats.waitCallerEnd_cases token sequence tick nowMs thread shape ok
    unfold Tally.call
    dsimp only
    cases opened : t.stats.opens (.waitCallerEnd token sequence tick nowMs thread shape ok) with
    | true => exact ⟨fun _ _ => rfl, fun none => none.symm, fun _ none => absurd none List.not_mem_nil⟩
    | false =>
      obtain ⟨inactive, same⟩ := idle opened
      exact held.goesOn (fun active => absurd (inactive.symm.trans active) Bool.false_ne_true)
        fun none => (held.begun none).trans same.symm
  | submitCallerBegin eye tick thread => exact held.quiet (.submitCallerBegin eye tick thread t.stats)
  | submitOwnerBegin token tick => exact held.quiet (.submitOwnerBegin token tick t.stats)
  | submitOwnerEnd token tick => exact held.quiet (.submitOwnerEnd token tick t.stats)
  | submitCallerEnd token eye sequence tick thread renderParkMs ok =>
    exact held.quiet (.submitCallerEnd token eye sequence tick thread renderParkMs ok t.stats)
  | noteDirectOwner => exact held.quiet (.bad _ t.stats)
  | noteHandoff beginUs endUs sequence thread ok =>
    exact held.quiet (.noteHandoff beginUs endUs sequence thread ok t.stats)
  | takeReport => exact held.quiet ⟨rfl, rfl, id⟩
  | takeCompleted => exact held.quiet ⟨rfl, rfl, id⟩

theorem sum_eq_last {brackets : List ℚ} (positive : ∀ ms ∈ brackets, 0 ≤ ms) (atOpen : ℚ) :
    brackets.getLast?.getD atOpen = brackets.sum ↔
      (∀ ms ∈ brackets.dropLast, ms = 0) ∧ (brackets = [] → atOpen = 0) := by
  rcases List.eq_nil_or_concat' brackets with rfl | ⟨earlier, last, rfl⟩
  · simp
  · have earlierPositive : ∀ ms ∈ earlier, 0 ≤ ms :=
      fun ms member => positive ms (List.mem_append_left [last] member)
    have spent : earlier.sum = 0 ↔ ∀ ms ∈ earlier, ms = 0 := by
      clear positive
      induction earlier with
      | nil => simp
      | cons ms earlier ih =>
        have head := earlierPositive ms List.mem_cons_self
        have rest := fun x member => earlierPositive x (List.mem_cons_of_mem ms member)
        have sum := List.sum_nonneg rest
        rw [List.sum_cons, List.forall_mem_cons, ← ih rest]
        constructor
        · intro none
          constructor <;> linarith
        · rintro ⟨rfl, none⟩
          rw [none, add_zero]
    rw [List.getLast?_concat, List.dropLast_concat, List.sum_append,
      List.sum_singleton, Option.getD_some, ← spent]
    constructor
    · intro same
      exact ⟨by linarith, fun none => absurd none (by simp)⟩
    · rintro ⟨none, -⟩
      rw [none, zero_add]

theorem owns (held : t.Held) (call : CycleCall) : ∀ c ∈ (t.call call).2, c.Settled →
    (c.sample.frameEndOwnerBody = c.brackets.sum ↔ c.Clean) := by
  intro c member settled
  obtain ⟨s, admitted, rfl⟩ := List.mem_map.mp member
  have takes : t.stats.current.active = true ∧ s.frameEndOwnerBody = t.stats.pendingFrameEndOwnerMs := by
    cases call with
    | waitCallerEnd token sequence tick nowMs thread shape ok =>
      exact ((t.stats.waitCallerEnd_cases token sequence tick nowMs thread shape ok).1 s admitted).2
    | _ => cases admitted
  have clean : t.cycle.Clean ↔ (∀ ms ∈ t.cycle.brackets.dropLast, ms = 0) ∧
      (t.cycle.brackets = [] → t.cycle.atOpen = 0) :=
    ⟨fun clean => ⟨clean.earlier, clean.leftOver⟩, fun clean => ⟨clean.1, clean.2⟩⟩
  rw [clean, ← sum_eq_last held.positive, ← held.pending takes.1 settled, takes.2]

end Tally.Held

end EdvrPatch.OpenXr
