import EdvrPatch.Gpu.FrameController
import EdvrPatch.Gpu.FrameRing

/-! What is expected of the completions, read off the record, and the slots of the instrument: every
frame that they hold was tried and is still to be completed. -/
namespace EdvrPatch.Gpu

open Lib

/-- `within` has the sequences that were armed since the last Present. Eyes count where
their sequence is among them. -/
structure FrameView where
  within : List Nat := []
  tried : List Nat := []
  begun : List (Nat × Nat) := []
  ended : List (Nat × Nat) := []
  completed : List Nat := []

/-- Both eyes were begun and ended between the wait and the next Present. -/
def FrameView.Paired (v : FrameView) (sequence : Nat) : Prop :=
  ∀ eye < 2, (sequence, eye) ∈ v.begun ∧ (sequence, eye) ∈ v.ended

/-- A sequence is completed once, and as valid only with both eyes. -/
def frameProtocol : Monitor FrameView FrameEvent where
  advance v
    | .armed sequence => { v with within := sequence :: v.within }
    | .presented => { v with within := [] }
    | .tried sequence => { v with tried := sequence :: v.tried }
    | .begun sequence eye => if sequence ∈ v.within then { v with begun := (sequence, eye) :: v.begun } else v
    | .ended sequence eye => if sequence ∈ v.within then { v with ended := (sequence, eye) :: v.ended } else v
    | .completed result => { v with completed := result.sequence :: v.completed }
  allows v
    | .completed result => result.sequence ∉ v.completed ∧
      (result.reason = .valid → v.Paired result.sequence)
    | _ => True

def completions (log : List FrameEvent) : List (Nat × GpuSpanReason) :=
  log.filterMap fun
    | .completed result => some (result.sequence, result.reason)
    | _ => none

theorem completions_nodup {log : List FrameEvent} {v : FrameView} (lawful : frameProtocol.Admits v log) :
    ((completions log).map Prod.fst).Nodup ∧
      ∀ s ∈ v.completed, s ∉ (completions log).map Prod.fst := by
  induction log generalizing v with
  | nil => exact ⟨List.nodup_nil, fun _ _ => List.not_mem_nil⟩
  | cons e rest ih =>
    obtain ⟨allowed, later⟩ := lawful
    have kept : (frameProtocol.advance v e).completed = v.completed →
        ((completions rest).map Prod.fst).Nodup ∧
          ∀ s ∈ v.completed, s ∉ (completions rest).map Prod.fst := fun same => same ▸ ih later
    cases e with
    | completed result =>
      obtain ⟨once, apart⟩ := ih later
      refine ⟨List.nodup_cons.mpr ⟨apart _ List.mem_cons_self, once⟩, fun s mem => ?_⟩
      refine List.not_mem_cons_of_ne_of_not_mem ?_ (apart s (List.mem_cons_of_mem _ mem))
      rintro rfl
      exact allowed.1 mem
    | armed sequence => exact kept rfl
    | presented => exact kept rfl
    | tried sequence => exact kept rfl
    | begun sequence eye =>
      refine kept ?_
      dsimp only [frameProtocol]
      split
      · rfl
      · rfl
    | ended sequence eye =>
      refine kept ?_
      dsimp only [frameProtocol]
      split
      · rfl
      · rfl

namespace FrameController

def view (c : FrameController) : FrameView := frameProtocol.after {} c.log

variable (answers : Nat → SpanAnswer)

/-- A submit comes for a sequence that is armed and has no frame open. -/
def Misses (c : FrameController) (sequence now : Nat) : Prop :=
  c.enabled = true ∧ (c.sync answers now).token = sequence * 2 + 1 ∧
    (c.sync answers now).poisoned < sequence ∧ (c.sync answers now).activeSequence = 0

/-- The driver refuses no scope and no first stamp of one; no frame is begun for a
sequence that was tried before, or after a Present since it was armed; no submit misses
a frame that was tried; and an eye is a shift within its width. -/
def Orderly (c : FrameController) (call : FrameCall) : Prop :=
  (∀ e ∈ (c.step answers call).ring.log, ¬GpuSpanState.Refused e) ∧
  match call with
  | .command now => ∀ sequence, (c.prepareCommand answers now).1 = some sequence →
      sequence ∉ c.view.tried ∧ sequence ∈ c.view.within
  | .event .submitBegin sequence _ _ now _ => c.Misses answers sequence now → sequence ∉ c.view.tried
  | .event .submitEnd _ eye _ _ _ => eye < 32
  | _ => True

end FrameController

namespace GpuSpanState

structure Fits (g : GpuSpanState) (v : FrameView) : Prop where
  opened : ∀ i, g.opened = some i → (g.slots i).state = .opened
  distinct : ∀ i k, (g.slots i).state ≠ .free → (g.slots k).state ≠ .free →
    (g.slots i).sequence = (g.slots k).sequence → i = k
  tried : ∀ i, (g.slots i).state ≠ .free → (g.slots i).sequence ∈ v.tried
  waiting : ∀ i, (g.slots i).state ≠ .free → (g.slots i).sequence ∉ v.completed
  paired : ∀ i, (g.slots i).state = .pending → (g.slots i).reason = .valid →
    v.Paired (g.slots i).sequence

variable {g g' : GpuSpanState} {v v' : FrameView} {i : Fin kSlots}

theorem Fits.fresh (owner : GpuSpanOwner) (asked : Nat) (v : FrameView) :
    Fits { GpuSpanState.fresh owner with asked := asked } v where
  opened := nofun
  distinct := fun _ _ used => absurd rfl used
  tried := fun _ used => absurd rfl used
  waiting := fun _ used => absurd rfl used
  paired := fun _ pending => nomatch pending

theorem Fits.view (h : Fits g v) (tried : ∀ s ∈ v.tried, s ∈ v'.tried)
    (paired : ∀ s, v.Paired s → v'.Paired s)
    (waiting : ∀ i, (g.slots i).state ≠ .free → (g.slots i).sequence ∉ v'.completed) : Fits g v' where
  opened := h.opened
  distinct := h.distinct
  tried := fun i used => tried _ (h.tried i used)
  waiting := waiting
  paired := fun i pending valid => paired _ (h.paired i pending valid)

theorem Fits.slots (h : Fits g v) (opened : ∀ i, g'.opened = some i → (g'.slots i).state = .opened)
    (used : ∀ i, (g'.slots i).state ≠ .free → (g.slots i).state ≠ .free ∧
      (g'.slots i).sequence = (g.slots i).sequence)
    (paired : ∀ i, (g'.slots i).state = .pending → (g'.slots i).reason = .valid →
      v.Paired (g'.slots i).sequence) : Fits g' v where
  opened := opened
  distinct := by
    intro i k usedI usedK same
    obtain ⟨beforeI, sameI⟩ := used i usedI
    obtain ⟨beforeK, sameK⟩ := used k usedK
    exact h.distinct i k beforeI beforeK (by rw [← sameI, ← sameK]; exact same)
  tried := by
    intro i isUsed
    obtain ⟨before, same⟩ := used i isUsed
    rw [same]
    exact h.tried i before
  waiting := by
    intro i isUsed
    obtain ⟨before, same⟩ := used i isUsed
    rw [same]
    exact h.waiting i before
  paired := paired

theorem state_of_face (same : (g'.slots i).face = (g.slots i).face) :
    (g'.slots i).state = (g.slots i).state := congrArg Prod.fst same

theorem sequence_of_face (same : (g'.slots i).face = (g.slots i).face) :
    (g'.slots i).sequence = (g.slots i).sequence := congrArg (fun f => f.2.1) same

theorem reason_of_face (same : (g'.slots i).face = (g.slots i).face) :
    (g'.slots i).reason = (g.slots i).reason := congrArg (fun f => f.2.2) same

theorem Fits.same (h : Fits g v) (same : SameFaces g g') : Fits g' v := by
  refine h.slots ?_ ?_ ?_
  · intro i active
    rw [state_of_face (same.faces i)]
    exact h.opened i (same.opened.symm.trans active)
  · intro i used
    rw [state_of_face (same.faces i)] at used
    exact ⟨used, sequence_of_face (same.faces i)⟩
  · intro i pending valid
    rw [state_of_face (same.faces i)] at pending
    rw [reason_of_face (same.faces i)] at valid
    rw [sequence_of_face (same.faces i)]
    exact h.paired i pending valid

theorem Fits.closes (h : Fits g v) {reason : GpuSpanReason} (closes : Closes g g' i reason)
    (paired : reason = .valid → v.Paired (g.slots i).sequence) : Fits g' v := by
  have used := h.opened i closes.active
  refine h.slots ?_ ?_ ?_
  · intro k active
    rw [closes.opened] at active
    cases active
  · intro k isUsed
    by_cases same : k = i
    · subst same
      exact ⟨by rw [used]; decide, congrArg (fun f => f.2.1) closes.face⟩
    · rw [state_of_face (closes.others k same)] at isUsed
      exact ⟨isUsed, sequence_of_face (closes.others k same)⟩
  · intro k pending valid
    by_cases same : k = i
    · subst same
      rw [show (g'.slots k).sequence = (g.slots k).sequence from congrArg (fun f => f.2.1) closes.face]
      exact paired ((congrArg (fun f => f.2.2) closes.face).symm.trans valid)
    · rw [state_of_face (closes.others k same)] at pending
      rw [reason_of_face (closes.others k same)] at valid
      rw [sequence_of_face (closes.others k same)]
      exact h.paired k pending valid

theorem Fits.givesUp (h : Fits g v) (gives : GivesUp g g') : Fits g' v := by
  rcases gives with same | ⟨i, reason, invalid, closes⟩
  · exact h.same same
  · exact h.closes closes fun valid => absurd valid invalid

theorem Fits.finishes (h : Fits g v) (finishes : Finishes g g')
    (paired : ∀ i, g.opened = some i → v.Paired (g.slots i).sequence) : Fits g' v := by
  rcases finishes with same | ⟨i, reason, closes⟩
  · exact h.same same
  · exact h.closes closes fun _ => paired i closes.active

theorem Fits.begins (h : Fits g v) {sequence : Nat} {r : GpuSpanReason × GpuSpanState}
    (begins : Begins g sequence r) (valid : r.1 = .valid) (untried : sequence ∉ v.tried)
    (waiting : sequence ∉ v.completed) : Fits r.2 { v with tried := sequence :: v.tried } := by
  obtain ⟨b, i, gives, _, opened, state, isSequence, others⟩ := begins.taken valid
  have before := h.givesUp gives
  have used : ∀ k, k ≠ i → (r.2.slots k).state ≠ .free →
      (b.slots k).state ≠ .free ∧ (r.2.slots k).sequence = (b.slots k).sequence := by
    intro k other isUsed
    rw [state_of_face (others k other)] at isUsed
    exact ⟨isUsed, sequence_of_face (others k other)⟩
  have apart : ∀ k, k ≠ i → (r.2.slots k).state ≠ .free → (r.2.slots k).sequence ≠ sequence := by
    intro k other isUsed same
    obtain ⟨isUsed, isSame⟩ := used k other isUsed
    exact untried (same ▸ isSame ▸ before.tried k isUsed)
  refine ⟨?_, ?_, ?_, ?_, ?_⟩
  · intro k active
    cases opened.symm.trans active
    exact state
  · intro k l usedK usedL same
    by_cases isK : k = i
    · by_cases isL : l = i
      · rw [isK, isL]
      · rw [isK, isSequence] at same
        exact absurd same.symm (apart l isL usedL)
    · by_cases isL : l = i
      · rw [isL, isSequence] at same
        exact absurd same (apart k isK usedK)
      · obtain ⟨beforeK, sameK⟩ := used k isK usedK
        obtain ⟨beforeL, sameL⟩ := used l isL usedL
        exact before.distinct k l beforeK beforeL (by rw [← sameK, ← sameL]; exact same)
  · intro k isUsed
    by_cases isK : k = i
    · rw [isK, isSequence]
      exact List.mem_cons_self
    · obtain ⟨isUsed, same⟩ := used k isK isUsed
      rw [same]
      exact List.mem_cons_of_mem _ (before.tried k isUsed)
  · intro k isUsed
    by_cases isK : k = i
    · rw [isK, isSequence]
      exact waiting
    · obtain ⟨isUsed, same⟩ := used k isK isUsed
      rw [same]
      exact before.waiting k isUsed
  · intro k pending isValid
    by_cases isK : k = i
    · rw [isK, state] at pending
      cases pending
    · rw [state_of_face (others k isK)] at pending
      rw [reason_of_face (others k isK)] at isValid
      rw [sequence_of_face (others k isK)]
      exact before.paired k pending isValid

theorem Reports.opened_face {results : List (Fin kSlots × GpuSpanResult)}
    (reports : Reports g g' results) (h : Fits g v) (active : g.opened = some i) :
    (g'.slots i).face = (g.slots i).face := by
  have before := h.opened i active
  refine reports.kept i fun p mem same => ?_
  rcases (reports.reported p mem).1.past with pending | failed
  · rw [same, before] at pending
    cases pending
  · rw [same, before] at failed
    cases failed

theorem Fits.reports (h : Fits g v) {results : List (Fin kSlots × GpuSpanResult)}
    (reports : Reports g g' results) : Fits g' v := by
  have kept : ∀ k, (g'.slots k).state ≠ .free → (g'.slots k).face = (g.slots k).face := by
    intro k isUsed
    refine reports.kept k fun p mem same => ?_
    exact isUsed (same ▸ (reports.reported p mem).2)
  refine h.slots ?_ ?_ ?_
  · intro i active
    have isOpen := reports.opened.symm.trans active
    exact (state_of_face (reports.opened_face h isOpen)).trans (h.opened i isOpen)
  · intro k isUsed
    have same := kept k isUsed
    exact ⟨by rw [← state_of_face same]; exact isUsed, sequence_of_face same⟩
  · intro k pending valid
    have same := kept k (by rw [pending]; decide)
    rw [state_of_face same] at pending
    rw [reason_of_face same] at valid
    rw [sequence_of_face same]
    exact h.paired k pending valid

end GpuSpanState

end EdvrPatch.Gpu
