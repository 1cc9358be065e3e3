import EdvrPatch.Lib.Threads

/-! The queue of `present_work_queue.h` under any number of threads. Each critical section is a
step; a callback begins and ends in steps of its own, between two of the pump. It may call the
queue: a nested `invoke` or `pump` is turned down without a trace, and a nested `close` is that of
one more thread. A request is named by the order of acceptance. -/
namespace EdvrPatch.OpenXr

open Lib

structure WorkRequest where
  running : Bool := false
  cancelled : Bool := false
  done : Bool := false
  success : Bool := false
  deriving DecidableEq, Repr

structure PresentWorkQueue where
  renderThread : Option Nat := none
  closed : Bool := false
  active : Bool := false
  activeInvokers : Nat := 0
  queue : List Nat := []
  requests : Nat → WorkRequest := fun _ => {}
  accepted : Nat := 0

/-- An invoker waits with a deadline, gives its request up, or waits for good; the pump
has claimed a request, runs it, has run it; a close is between two requests, or has one
to retire. -/
inductive WorkTask where
  | idle
  | waiting (request : Nat)
  | releasing (request : Nat)
  | waitingOn (request : Nat)
  | claimed (request : Nat)
  | running (request : Nat)
  | ran (request : Nat) (success : Bool)
  | closing
  | retiring (request : Nat)
  deriving DecidableEq, Repr

/-- `allocated` is false for an `invoke` without a callback, or without memory. -/
inductive WorkMove where
  | bindCurrentThread
  | invoke (allocated : Bool)
  | pump
  | close
  | callbackBegins
  | callbackEnds (success : Bool)
  | wake
  | timeout
  | proceed
  deriving DecidableEq, Repr

inductive WorkEvent where
  | accepted (thread request : Nat)
  | refused (thread : Nat)
  | claimed (thread request : Nat)
  | began (request : Nat)
  | ended (request : Nat) (success : Bool)
  | returned (thread request : Nat) (result : Bool)
  | closeReturned (thread : Nat)
  deriving DecidableEq, Repr

namespace PresentWorkQueue

def kQueueCapacity : Nat := 16

def setRequest (q : PresentWorkQueue) (request : Nat) (w : WorkRequest) : PresentWorkQueue :=
  { q with requests := Function.update q.requests request w }

def bindCurrentThread (q : PresentWorkQueue) (thread : Nat) : PresentWorkQueue :=
  if q.renderThread.isSome || q.closed then q else { q with renderThread := some thread }

def admission (q : PresentWorkQueue) (thread : Nat) (allocated : Bool) :
    PresentWorkQueue × WorkTask × List WorkEvent :=
  if ¬allocated ∨ q.renderThread = none ∨ q.closed ∨ q.renderThread = some thread ∨
      kQueueCapacity ≤ q.queue.length then (q, .idle, [.refused thread])
  else
    ({ q.setRequest q.accepted {} with
        queue := q.queue ++ [q.accepted]
        activeInvokers := q.activeInvokers + 1
        accepted := q.accepted + 1 },
      .waiting q.accepted, [.accepted thread q.accepted])

def leave (q : PresentWorkQueue) (thread request : Nat) (result : Bool) :
    PresentWorkQueue × WorkTask × List WorkEvent :=
  ({ q with activeInvokers := q.activeInvokers - 1 }, .idle, [.returned thread request result])

def wake (q : PresentWorkQueue) (thread request : Nat) (task : WorkTask) :
    PresentWorkQueue × WorkTask × List WorkEvent :=
  if (q.requests request).done then q.leave thread request (q.requests request).success
  else (q, task, [])

/-- The deadline has passed. The request is given up only where it is still queued. -/
def timeout (q : PresentWorkQueue) (thread request : Nat) :
    PresentWorkQueue × WorkTask × List WorkEvent :=
  let w := q.requests request
  if w.done then q.leave thread request w.success
  else if ¬w.running ∧ request ∈ q.queue then
    ({ q.setRequest request { w with cancelled := true } with queue := q.queue.erase request },
      .releasing request, [])
  else (q, .waitingOn request, [])

/-- A request that was taken out of the queue is over, without having run. -/
def retire (q : PresentWorkQueue) (request : Nat) : PresentWorkQueue :=
  q.setRequest request { q.requests request with done := true, success := false }

def claim (q : PresentWorkQueue) (thread : Nat) : PresentWorkQueue × WorkTask × List WorkEvent :=
  if q.renderThread ≠ some thread ∨ q.closed ∨ q.active then (q, .idle, [])
  else
    match q.queue with
    | [] => (q, .idle, [])
    | request :: rest =>
      ({ q.setRequest request { q.requests request with running := true } with
          queue := rest, active := true },
        .claimed request, [.claimed thread request])

def finish (q : PresentWorkQueue) (request : Nat) (success : Bool) : PresentWorkQueue :=
  { q.setRequest request
      { q.requests request with success := success, running := false, done := true } with
    active := false }

def closeNext (q : PresentWorkQueue) (thread : Nat) : PresentWorkQueue × WorkTask × List WorkEvent :=
  match q.queue with
  | [] => ({ q with closed := true }, .idle, [.closeReturned thread])
  | request :: rest =>
    ({ q.setRequest request { q.requests request with cancelled := true } with
        closed := true, queue := rest },
      .retiring request, [])

def step (q : PresentWorkQueue) (thread : Nat) (task : WorkTask) (move : WorkMove) :
    PresentWorkQueue × WorkTask × List WorkEvent :=
  match task, move with
  | .idle, .bindCurrentThread => (q.bindCurrentThread thread, .idle, [])
  | .idle, .invoke allocated => q.admission thread allocated
  | .idle, .pump => q.claim thread
  | .idle, .close => q.closeNext thread
  | .waiting request, .wake => q.wake thread request (.waiting request)
  | .waiting request, .timeout => q.timeout thread request
  | .waitingOn request, .wake => q.wake thread request (.waitingOn request)
  | .releasing request, .proceed => (q.retire request).leave thread request false
  | .claimed request, .callbackBegins => (q, .running request, [.began request])
  | .running request, .callbackEnds success => (q, .ran request success, [.ended request success])
  | .ran request success, .proceed => (q.finish request success, .idle, [])
  | .closing, .proceed => q.closeNext thread
  | .retiring request, .proceed => (q.retire request, .closing, [])
  | task, _ => (q, task, [])

end PresentWorkQueue

end EdvrPatch.OpenXr
