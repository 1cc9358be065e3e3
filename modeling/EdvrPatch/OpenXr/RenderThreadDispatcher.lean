import EdvrPatch.OpenXr.OwnerServiceRuns

/-! The rendezvous of `render_thread_dispatcher.h` between a bound render thread and the owner. A
critical section is a step. Of the owner service only the lives of the requests that `invokeOwner`
submits are seen: the owner may claim a queued one, and a stop of the service may cancel it. A
callback may call the dispatcher: what is not the owner in its boundary is turned down at once, and
a nested `close`, or a stop of the service, is that of one more thread. Boundaries and jobs are
named in the order they are made. -/
namespace EdvrPatch.OpenXr

open Lib

structure GraphicsJob where
  running : Bool := false
  done : Bool := false
  success : Bool := false
  deriving DecidableEq, Repr

structure OwnerBoundary where
  ownerExecuting : Bool := false
  done : Bool := false
  success : Bool := false
  cancelled : Bool := false
  deriving DecidableEq, Repr

/-- `owner` is the owner's thread, and `life` is that of a boundary's request. -/
structure RenderThreadDispatcher where
  owner : Nat
  renderThread : Option Nat := none
  closed : Bool := false
  boundary : Option Nat := none
  graphics : Option Nat := none
  boundaries : Nat → OwnerBoundary := fun _ => {}
  jobs : Nat → GraphicsJob := fun _ => {}
  life : Nat → Life := fun _ => .outside
  madeBoundaries : Nat := 0
  madeJobs : Nat := 0

/-- The render thread is in `invokeOwner`: it submits, was turned down by the service,
waits, or has a job; the owner is in a request of a boundary; a stop of the service has
cancelled one; or a `close` has a job it cancels. -/
inductive DispatchBase where
  | idle
  | submitting (boundary : Nat)
  | rejected (boundary : Nat)
  | waitingOwner (boundary : Nat)
  | jobClaimed (boundary job : Nat)
  | jobRunning (boundary job : Nat)
  | jobRan (boundary job : Nat) (success : Bool)
  | entering (boundary : Nat)
  | inBoundary (boundary : Nat)
  | leaving (boundary : Nat) (success : Bool)
  | cancelling (boundary : Nat)
  | closing (job : Nat)
  deriving DecidableEq, Repr

structure DispatchTask where
  base : DispatchBase := .idle
  job : Option Nat := none
  deriving DecidableEq, Repr

/-- `fine` is false for an empty callback, or without memory; `ends` is the end of the
callback a thread runs. -/
inductive DispatchMove where
  | bindCurrentThread
  | invoke (fine : Bool)
  | invokeOwner (fine : Bool)
  | submitted (accepted : Bool)
  | ownerRuns (boundary : Nat)
  | serviceCancels (boundary : Nat)
  | close
  | begins
  | ends (success : Bool)
  | proceed
  deriving DecidableEq, Repr

inductive DispatchEvent where
  | bound (thread : Nat)
  | boundaryBegan (boundary : Nat)
  | boundaryEnded (boundary : Nat) (success : Bool)
  | ownerRefused (thread : Nat)
  | ownerReturned (thread boundary : Nat) (result : Bool)
  | refused (thread : Nat)
  | jobAccepted (boundary job : Nat)
  | jobBegan (thread job : Nat)
  | jobEnded (job : Nat) (success : Bool)
  | jobCancelled (job : Nat)
  | invokeReturned (job : Nat) (result : Bool)
  | closeReturned (thread : Nat)
  deriving DecidableEq, Repr

namespace RenderThreadDispatcher

def setBoundary (s : RenderThreadDispatcher) (b : Nat) (w : OwnerBoundary) : RenderThreadDispatcher :=
  { s with boundaries := Function.update s.boundaries b w }

def setJob (s : RenderThreadDispatcher) (j : Nat) (w : GraphicsJob) : RenderThreadDispatcher :=
  { s with jobs := Function.update s.jobs j w }

def setLife (s : RenderThreadDispatcher) (b : Nat) (l : Life) : RenderThreadDispatcher :=
  { s with life := Function.update s.life b l }

def bindCurrentThread (s : RenderThreadDispatcher) (thread : Nat) :
    RenderThreadDispatcher × DispatchBase × List DispatchEvent :=
  if s.renderThread.isSome || s.closed then (s, .idle, [])
  else ({ s with renderThread := some thread }, .idle, [.bound thread])

def invoke (s : RenderThreadDispatcher) (thread : Nat) (task : DispatchTask) (fine : Bool) :
    RenderThreadDispatcher × DispatchTask × List DispatchEvent :=
  match s.boundary with
  | none => (s, task, [.refused thread])
  | some b =>
    if ¬fine ∨ thread ≠ s.owner ∨ s.closed ∨ ¬(s.boundaries b).ownerExecuting ∨ s.graphics.isSome ∨
        s.renderThread = some thread then (s, task, [.refused thread])
    else
      ({ s.setJob s.madeJobs {} with graphics := some s.madeJobs, madeJobs := s.madeJobs + 1 },
        { task with job := some s.madeJobs }, [.jobAccepted b s.madeJobs])

def wake (s : RenderThreadDispatcher) (base : DispatchBase) (j : Nat) :
    RenderThreadDispatcher × DispatchTask × List DispatchEvent :=
  if (s.jobs j).done then (s, ⟨base, none⟩, [.invokeReturned j (s.jobs j).success])
  else (s, ⟨base, some j⟩, [])

def invokeOwner (s : RenderThreadDispatcher) (thread : Nat) (base : DispatchBase) (fine : Bool) :
    RenderThreadDispatcher × DispatchBase × List DispatchEvent :=
  if ¬fine ∨ thread = s.owner ∨ s.closed ∨ s.boundary.isSome ∨ s.renderThread ≠ some thread then
    (s, base, [.ownerRefused thread])
  else
    ({ s.setBoundary s.madeBoundaries {} with
        boundary := some s.madeBoundaries, madeBoundaries := s.madeBoundaries + 1 },
      .submitting s.madeBoundaries, [])

/-- The render thread's turn: a job, the end of the boundary, or a longer wait. -/
def nextTurn (s : RenderThreadDispatcher) (thread b : Nat) :
    RenderThreadDispatcher × DispatchBase × List DispatchEvent :=
  match s.graphics with
  | some j => (s.setJob j { s.jobs j with running := true }, .jobClaimed b j, [])
  | none =>
    if (s.boundaries b).done then
      ({ s with boundary := none }, .idle, [.ownerReturned thread b (s.boundaries b).success])
    else (s, .waitingOwner b, [])

def finishJob (s : RenderThreadDispatcher) (j : Nat) (success : Bool) : RenderThreadDispatcher :=
  { s.setJob j { s.jobs j with success := success, done := true } with graphics := none }

def enter (s : RenderThreadDispatcher) (b : Nat) : RenderThreadDispatcher × DispatchBase × List DispatchEvent :=
  if s.closed then
    ((s.setBoundary b { s.boundaries b with cancelled := true }).setLife b (.ended true), .leaving b true, [])
  else
    ((s.setBoundary b { s.boundaries b with ownerExecuting := true }).setLife b .begun, .inBoundary b,
      [.boundaryBegan b])

/-- The callback of `invokeOwner` is over, and `EndOwnerWork` with it. -/
def leave (s : RenderThreadDispatcher) (b : Nat) (success : Bool) : RenderThreadDispatcher :=
  (s.setBoundary b { s.boundaries b with ownerExecuting := false }).setLife b (.ended success)

def complete (s : RenderThreadDispatcher) (b : Nat) (success : Bool) : RenderThreadDispatcher :=
  (s.setBoundary b { s.boundaries b with success := success && !(s.boundaries b).cancelled, done := true }).setLife b
    (.finished success)

def shut (s : RenderThreadDispatcher) : RenderThreadDispatcher :=
  match s.boundary with
  | some b => { s.setBoundary b { s.boundaries b with cancelled := true } with closed := true }
  | none => { s with closed := true }

def close (s : RenderThreadDispatcher) (thread : Nat) :
    RenderThreadDispatcher × DispatchBase × List DispatchEvent :=
  match s.graphics with
  | some j =>
    if (s.jobs j).running then (s.shut, .idle, [.closeReturned thread])
    else ({ s.shut with graphics := none }, .closing j, [.jobCancelled j])
  | none => (s.shut, .idle, [.closeReturned thread])

def stepBase (s : RenderThreadDispatcher) (thread : Nat) (base : DispatchBase) (move : DispatchMove) :
    RenderThreadDispatcher × DispatchBase × List DispatchEvent :=
  match base, move with
  | .idle, .bindCurrentThread => s.bindCurrentThread thread
  | .idle, .close => s.close thread
  | .idle, .ownerRuns b =>
    if thread = s.owner ∧ s.life b = .queued then (s.setLife b .claimed, .entering b, [])
    else (s, .idle, [])
  | .idle, .serviceCancels b =>
    if s.life b = .queued then (s.setLife b .cancelled, .cancelling b, []) else (s, .idle, [])
  | .idle, .invokeOwner fine => s.invokeOwner thread base fine
  | .jobRunning .., .invokeOwner fine => s.invokeOwner thread base fine
  | .inBoundary _, .invokeOwner fine => s.invokeOwner thread base fine
  | .submitting b, .submitted accepted =>
    if accepted then (s.setLife b .queued, .waitingOwner b, []) else (s, .rejected b, [])
  | .rejected b, .proceed => ({ s with boundary := none }, .idle, [.ownerReturned thread b false])
  | .waitingOwner b, .proceed => s.nextTurn thread b
  | .jobClaimed b j, .begins => (s, .jobRunning b j, [.jobBegan thread j])
  | .jobRunning b j, .ends success => (s, .jobRan b j success, [.jobEnded j success])
  | .jobRan b j success, .proceed => (s.finishJob j success, .waitingOwner b, [])
  | .entering b, .proceed => s.enter b
  | .inBoundary b, .ends success => (s.leave b success, .leaving b success, [.boundaryEnded b success])
  | .leaving b success, .proceed => (s.complete b success, .idle, [])
  | .cancelling b, .proceed => (s.complete b false, .idle, [])
  | .closing j, .proceed =>
    (s.setJob j { s.jobs j with success := false, done := true }, .idle, [.closeReturned thread])
  | base, _ => (s, base, [])

/-- Code that is not the dispatcher's is running, and may call `invoke`. -/
def isUserCode : DispatchBase → Bool
  | .idle | .jobRunning .. | .inBoundary _ | .leaving .. | .cancelling _ | .closing _ => true
  | _ => false

def step (s : RenderThreadDispatcher) (thread : Nat) (task : DispatchTask) (move : DispatchMove) :
    RenderThreadDispatcher × DispatchTask × List DispatchEvent :=
  match task.job, move with
  | some j, .proceed => s.wake task.base j
  | some _, _ => (s, task, [])
  | none, .invoke fine => if isUserCode task.base then s.invoke thread task fine else (s, task, [])
  | none, move =>
    let (s, base, said) := s.stepBase thread task.base move
    (s, ⟨base, none⟩, said)

end RenderThreadDispatcher

def dispatcherRun (owner : Nat) (moves : List (Nat × DispatchMove)) :
    Threads RenderThreadDispatcher DispatchTask × List DispatchEvent :=
  Threads.run RenderThreadDispatcher.step ⟨{ owner := owner }, fun _ => {}⟩ moves

end EdvrPatch.OpenXr
