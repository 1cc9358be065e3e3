import EdvrPatch.OpenXr.CompositorPublication

/-! The seated resets that the game polls for (`reset_events.h`), and runs of the calls
that queue and take them. -/
namespace EdvrPatch.OpenXr

open Lib

structure ResetItem (Pose : Type) where
  originGeneration : UInt64
  nowMs : UInt64
  pose : Pose

variable {Pose : Type}

structure ResetEvents (Pose : Type) where
  items : List (ResetItem Pose) := []
  generation : UInt64 := 0

/-- What a reader is given: the event's age and the pose of the new origin. -/
structure ResetEvent (Pose : Type) where
  ageMs : UInt64
  pose : Pose

inductive ResetEntry (Pose : Type) where
  | begun (generation : UInt64)
  | pushed (generation : UInt64) (item : ResetItem Pose)
  | popped (generation : UInt64) (item : ResetItem Pose) (event : ResetEvent Pose)
  | retired

namespace ResetEvents

def capacity : Nat := 16

def begin (q : ResetEvents Pose) (generation : UInt64) :
    ResetEvents Pose × List (ResetEntry Pose) :=
  if q.generation ≠ 0 ∨ generation = 0 then (q, [])
  else ({ items := [], generation := generation }, [.begun generation])

def push (q : ResetEvents Pose) (generation originGeneration nowMs : UInt64) (seatedPose : Pose) :
    ResetEvents Pose × List (ResetEntry Pose) :=
  if generation = 0 ∨ generation ≠ q.generation ∨ originGeneration = 0 ∨
      q.items.length = capacity then (q, [])
  else
    ({ q with items := q.items ++ [⟨originGeneration, nowMs, seatedPose⟩] },
      [.pushed generation ⟨originGeneration, nowMs, seatedPose⟩])

/-- The pose of a reset is of use in the origin it set only. `invalid` is
`invalidHeadPose(true)`. -/
def eventOf (invalid : Pose) (item : ResetItem Pose) (originGeneration : UInt64)
    (origin : TrackingOrigin) (nowMs : UInt64) : ResetEvent Pose where
  ageMs := if item.nowMs ≤ nowMs then nowMs - item.nowMs else 0
  pose := if origin = .seated ∧ originGeneration = item.originGeneration then item.pose else invalid

def pop (invalid : Pose) (q : ResetEvents Pose) (generation originGeneration : UInt64)
    (origin : TrackingOrigin) (nowMs : UInt64) : ResetEvents Pose × List (ResetEntry Pose) :=
  if generation = 0 ∨ generation ≠ q.generation then (q, [])
  else match q.items with
    | [] => (q, [])
    | item :: rest =>
      ({ q with items := rest },
        [.popped generation item (eventOf invalid item originGeneration origin nowMs)])

def retire (q : ResetEvents Pose) (generation : UInt64) :
    ResetEvents Pose × List (ResetEntry Pose) :=
  if generation ≠ 0 ∧ generation = q.generation then ({}, [.retired]) else (q, [])

end ResetEvents

inductive ResetCall (Pose : Type) where
  | begin (generation : UInt64)
  | push (generation originGeneration nowMs : UInt64) (seatedPose : Pose)
  | pop (generation originGeneration : UInt64) (origin : TrackingOrigin) (nowMs : UInt64)
  | retire (generation : UInt64)

def ResetCall.isFor : ResetCall Pose → Option UInt64
  | .begin _ => none
  | .push generation _ _ _ => some generation
  | .pop generation _ _ _ => some generation
  | .retire generation => some generation

namespace ResetEntry

def mark : ResetEntry Pose → EpochMark
  | .begun _ => .opens
  | .retired => .closes
  | _ => .inside

def pushedItem : ResetEntry Pose → Option (ResetItem Pose)
  | .pushed _ item => some item
  | _ => none

def poppedItem : ResetEntry Pose → Option (ResetItem Pose)
  | .popped _ item _ => some item
  | _ => none

def bears : ResetEntry Pose → Option UInt64
  | .begun generation => some generation
  | .pushed generation _ => some generation
  | .popped generation _ _ => some generation
  | .retired => none

end ResetEntry

def resetEpoch (log : List (ResetEntry Pose)) : List (ResetEntry Pose) :=
  currentEpoch ResetEntry.mark log

namespace ResetEvents

variable (invalid : Pose)

def call (q : ResetEvents Pose) : ResetCall Pose → ResetEvents Pose × List (ResetEntry Pose)
  | .begin generation => q.begin generation
  | .push generation originGeneration nowMs seatedPose =>
    q.push generation originGeneration nowMs seatedPose
  | .pop generation originGeneration origin nowMs =>
    q.pop invalid generation originGeneration origin nowMs
  | .retire generation => q.retire generation

def current (q : ResetEvents Pose) : Option UInt64 :=
  if q.generation = 0 then none else some q.generation

theorem call_of_stale (q : ResetEvents Pose) (call : ResetCall Pose) {generation : UInt64}
    (isFor : call.isFor = some generation) (stale : q.current ≠ some generation) :
    q.call invalid call = (q, []) := by
  have refused : generation = 0 ∨ generation ≠ q.generation := by
    by_contra isCurrent
    obtain ⟨nonzero, rfl⟩ := (not_or.mp isCurrent).imp_right not_not.mp
    exact stale (if_neg nonzero)
  cases call with
  | begin _ => cases isFor
  | push _ originGeneration nowMs seatedPose =>
    cases isFor
    exact if_pos (refused.imp_right .inl)
  | pop _ originGeneration origin nowMs =>
    cases isFor
    exact if_pos refused
  | retire _ =>
    cases isFor
    exact if_neg fun live => refused.elim live.1 (absurd live.2)

/-- An event is handed out by a `pop` only, and is made of the oldest item held. -/
theorem mem_call_popped (q : ResetEvents Pose) (call : ResetCall Pose) {generation : UInt64}
    {item : ResetItem Pose} {event : ResetEvent Pose}
    (mem : .popped generation item event ∈ (q.call invalid call).2) :
    q.items.head? = some item ∧ ∃ originGeneration origin nowMs,
      call = .pop generation originGeneration origin nowMs ∧
        event = eventOf invalid item originGeneration origin nowMs := by
  cases call with
  | begin generation => grind [ResetEvents.call, ResetEvents.begin]
  | push generation originGeneration nowMs seatedPose => grind [ResetEvents.call, ResetEvents.push]
  | pop asked originGeneration origin nowMs =>
    rw [ResetEvents.call, pop] at mem
    split at mem
    · cases mem
    split at mem
    · cases mem
    · rename_i oldest rest held
      cases List.mem_singleton.mp mem
      exact ⟨congrArg List.head? held, originGeneration, origin, nowMs, rfl, rfl⟩
  | retire generation => grind [ResetEvents.call, ResetEvents.retire]

/-- What the queue holds is what was pushed in this generation and is still to be taken. -/
structure Linked (q : ResetEvents Pose) (log : List (ResetEntry Pose)) : Prop where
  closed : q.generation = 0 → resetEpoch log = []
  same : ∀ e ∈ resetEpoch log, ∀ generation ∈ e.bears, generation = q.generation
  queued : (resetEpoch log).filterMap ResetEntry.pushedItem =
    (resetEpoch log).filterMap ResetEntry.poppedItem ++ q.items

namespace Linked

variable {q : ResetEvents Pose} {log : List (ResetEntry Pose)}

theorem init : ({} : ResetEvents Pose).Linked [] where
  closed := fun _ => rfl
  same := fun _ mem => nomatch mem
  queued := rfl

theorem extend (linked : q.Linked log) (live : q.generation ≠ 0) {items : List (ResetItem Pose)}
    {e : ResetEntry Pose} (inside : e.mark = .inside)
    (bears : ∀ generation ∈ e.bears, generation = q.generation)
    (queued : (resetEpoch log ++ [e]).filterMap ResetEntry.pushedItem =
      (resetEpoch log ++ [e]).filterMap ResetEntry.poppedItem ++ items) :
    ({ q with items := items } : ResetEvents Pose).Linked (log ++ [e]) := by
  have epoch : resetEpoch (log ++ [e]) = resetEpoch log ++ [e] := currentEpoch_inside _ inside log
  refine ⟨fun closed => absurd closed live, ?_, epoch ▸ queued⟩
  rw [epoch]
  intro old mem
  rcases List.mem_append.mp mem with mem | mem
  · exact linked.same old mem
  · cases List.mem_singleton.mp mem
    exact bears

theorem begin (linked : q.Linked log) (generation : UInt64) :
    (q.begin generation).1.Linked (log ++ (q.begin generation).2) := by
  unfold ResetEvents.begin
  split
  · rwa [List.append_nil]
  rename_i free
  have epoch : resetEpoch (log ++ [ResetEntry.begun generation]) = [.begun generation] :=
    currentEpoch_opens _ rfl log
  refine ⟨fun closed => absurd closed (not_or.mp free).2, ?_, ?_⟩
  · rw [epoch]
    intro e mem
    cases List.mem_singleton.mp mem
    rintro _ ⟨⟩
    rfl
  · rw [epoch]
    rfl

theorem push (linked : q.Linked log) (generation originGeneration nowMs : UInt64)
    (seatedPose : Pose) :
    (q.push generation originGeneration nowMs seatedPose).1.Linked
      (log ++ (q.push generation originGeneration nowMs seatedPose).2) := by
  unfold ResetEvents.push
  split
  · rwa [List.append_nil]
  rename_i free
  obtain ⟨nonzero, isCurrent, -⟩ := (not_or.mp free).imp_right not_or.mp
  refine linked.extend (not_not.mp isCurrent ▸ nonzero) rfl ?_ ?_
  · rintro _ ⟨⟩
    exact not_not.mp isCurrent
  · rw [List.filterMap_append, List.filterMap_append, linked.queued]
    simp [ResetEntry.pushedItem, ResetEntry.poppedItem]

theorem pop (linked : q.Linked log) (generation originGeneration : UInt64)
    (origin : TrackingOrigin) (nowMs : UInt64) :
    (q.pop invalid generation originGeneration origin nowMs).1.Linked
      (log ++ (q.pop invalid generation originGeneration origin nowMs).2) := by
  unfold ResetEvents.pop
  split
  · rwa [List.append_nil]
  rename_i free
  obtain ⟨nonzero, isCurrent⟩ := (not_or.mp free).imp_right not_not.mp
  have live : q.generation ≠ 0 := isCurrent ▸ nonzero
  split
  · rwa [List.append_nil]
  · rename_i item rest held
    refine linked.extend live rfl ?_ ?_
    · rintro _ ⟨⟩
      exact isCurrent
    · rw [List.filterMap_append, List.filterMap_append, linked.queued, held]
      simp [ResetEntry.pushedItem, ResetEntry.poppedItem]

theorem retire (linked : q.Linked log) (generation : UInt64) :
    (q.retire generation).1.Linked (log ++ (q.retire generation).2) := by
  unfold ResetEvents.retire
  split
  · have epoch : resetEpoch (log ++ [ResetEntry.retired]) = [] := currentEpoch_closes _ rfl log
    refine ⟨fun _ => epoch, ?_, ?_⟩
    · rw [epoch]
      exact fun _ mem => nomatch mem
    · rw [epoch]
      rfl
  · rwa [List.append_nil]

theorem call (linked : q.Linked log) (call : ResetCall Pose) :
    (q.call invalid call).1.Linked (log ++ (q.call invalid call).2) := by
  cases call with
  | begin generation => exact linked.begin generation
  | push generation originGeneration nowMs seatedPose =>
    exact linked.push generation originGeneration nowMs seatedPose
  | pop generation originGeneration origin nowMs =>
    exact linked.pop invalid generation originGeneration origin nowMs
  | retire generation => exact linked.retire generation

end Linked

end ResetEvents

def resetRun (invalid : Pose) (calls : List (ResetCall Pose)) :
    ResetEvents Pose × List (ResetEntry Pose) :=
  traced (ResetEvents.call invalid) {} calls

theorem resetRun_linked (invalid : Pose) (calls : List (ResetCall Pose)) :
    (resetRun invalid calls).1.Linked (resetRun invalid calls).2 :=
  traced_induction _ _ .init (fun _ _ call linked => linked.call invalid call) calls

end EdvrPatch.OpenXr
