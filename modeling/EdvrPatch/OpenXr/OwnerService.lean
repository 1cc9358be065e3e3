import EdvrPatch.Lib.Threads

/-! The executor of `owner_service.h`, from a `start` that was accepted on, under any number of
threads. A critical section is a step. Callbacks, completions, the idle callback, the finalizer and
the destructors of what they capture are code that may call the service again: a thread is in a
stack of calls over its base, the owner's loop for the owner and code of its own for any other. A
request is named by the order of acceptance. -/
namespace EdvrPatch.OpenXr

open Lib

structure OwnerRequest where
  done : Bool := false
  success : Bool := false
  deriving DecidableEq, Repr

/-- `joinable` is that of `worker_`, and `exited` says that the owner's thread is over.
A callback is named by a number, and an empty one is `none`. -/
structure OwnerService where
  queue : List Nat := []
  joinable : Bool := true
  idle : Bool := false
  ownerId : Option Nat := none
  running : Bool := true
  stopping : Bool := false
  joining : Bool := false
  cancellationReady : Bool := false
  idleFailed : Bool := false
  finalOutcome : Bool := true
  finalizer : Option Nat := none
  stopCallers : Nat := 0
  requests : Nat → OwnerRequest := fun _ => {}
  accepted : Nat := 0
  exited : Bool := false

/-- Where the owner's loop is; any other thread is `outside`. -/
inductive OwnerBase where
  | outside
  | starting
  | looping
  | claimed (request : Nat)
  | running (request : Nat)
  | ran (request : Nat) (success : Bool)
  | completing (request : Nat) (success : Bool)
  | afterRequest
  | idling
  | awaitingReady
  | finalizing (finalizer : Option Nat)
  | finalized (outcome : Bool)
  | exiting
  | exited
  deriving DecidableEq, Repr

/-- A call of the service that has not returned. The first stop is `cancelling` what it
took out of the queue, or `retracting` a request of it. -/
inductive OwnerCall where
  | entering
  | inline
  | invoking (request : Nat)
  | cancelling (owner : Bool) (cancelled : List Nat)
  | retracting (owner : Bool) (request : Nat) (cancelled : List Nat)
  | awaiting
  | joining
  deriving DecidableEq, Repr

structure OwnerTask where
  base : OwnerBase := .outside
  calls : List OwnerCall := []
  deriving DecidableEq, Repr

/-- `callback` is false for an empty callback and `allocated` when there is no memory for
the request. `ends` is the end of a callback, and `idleDue` says that the idle callback
has not run for 5 ms. -/
inductive OwnerMove where
  | invoke (callback allocated : Bool)
  | submit (callback allocated : Bool)
  | stop (finalizer : Option Nat)
  | ends (success : Bool)
  | proceed (idleDue : Bool)
  deriving DecidableEq, Repr

inductive OwnerEvent where
  | accepted (thread request : Nat)
  | refused (thread : Nat)
  | inlined (thread : Nat)
  | claimed (request : Nat)
  | began (request : Nat)
  | ended (request : Nat) (success : Bool)
  | completed (request : Nat) (success : Bool)
  | finished (request : Nat) (success : Bool)
  | invokeReturned (thread request : Nat) (result : Bool)
  | stopping (thread : Nat) (finalizer : Option Nat)
  | finalizing (finalizer : Option Nat)
  | finalized
  | stopReturned (thread : Nat) (external result : Bool)
  deriving DecidableEq, Repr

def OwnerBase.isUserCode : OwnerBase → Bool
  | .outside | .running _ | .ran .. | .completing .. | .idling | .finalizing _ | .finalized _ => true
  | _ => false

def OwnerCall.isUserCode : OwnerCall → Bool
  | .inline | .cancelling _ (_ :: _) | .retracting .. => true
  | _ => false

def OwnerTask.isUserCode (task : OwnerTask) : Bool :=
  match task.calls with
  | [] => task.base.isUserCode
  | call :: _ => call.isUserCode

namespace OwnerService

def kQueueCapacity : Nat := 16

def admits (s : OwnerService) : Bool :=
  s.running && !s.stopping

def push (s : OwnerService) : OwnerService :=
  { s with queue := s.queue ++ [s.accepted], accepted := s.accepted + 1 }

def isOwner (s : OwnerService) (thread : Nat) : Bool :=
  s.ownerId == some thread

def invoke (s : OwnerService) (thread : Nat) (task : OwnerTask) (callback allocated : Bool) :
    OwnerService × OwnerTask × List OwnerEvent :=
  if ¬callback then (s, task, [.refused thread])
  else if s.isOwner thread then
    if s.admits then (s, { task with calls := .entering :: task.calls }, [])
    else (s, task, [.refused thread])
  else if allocated ∧ s.admits ∧ s.queue.length < kQueueCapacity then
    (s.push, { task with calls := .invoking s.accepted :: task.calls }, [.accepted thread s.accepted])
  else (s, task, [.refused thread])

def submit (s : OwnerService) (thread : Nat) (task : OwnerTask) (callback allocated : Bool) :
    OwnerService × OwnerTask × List OwnerEvent :=
  if callback ∧ allocated ∧ s.admits ∧ s.queue.length < kQueueCapacity then
    (s.push, task, [.accepted thread s.accepted])
  else (s, task, [.refused thread])

def finish (s : OwnerService) (request : Nat) (success : Bool) : OwnerService :=
  { s with requests := Function.update s.requests request { done := true, success := success } }

def leaveStop (s : OwnerService) (thread : Nat) (task : OwnerTask) :
    OwnerService × OwnerTask × List OwnerEvent :=
  ({ s with stopCallers := s.stopCallers - 1 }, task, [.stopReturned thread true s.finalOutcome])

/-- What `stop` does once the requests it may have had to cancel are over. -/
def awaitExit (s : OwnerService) (thread : Nat) (owner : Bool) (task : OwnerTask) :
    OwnerService × OwnerTask × List OwnerEvent :=
  if owner then (s, task, [.stopReturned thread false false])
  else if ¬s.joinable ∧ ¬s.running then s.leaveStop thread task
  else if s.joining then (s, { task with calls := .awaiting :: task.calls }, [])
  else
    ({ s with joining := true, joinable := false }, { task with calls := .joining :: task.calls }, [])

def stop (s : OwnerService) (thread : Nat) (task : OwnerTask) (finalizer : Option Nat) :
    OwnerService × OwnerTask × List OwnerEvent :=
  let owner := s.isOwner thread
  let s := if owner then s else { s with stopCallers := s.stopCallers + 1 }
  if (s.running ∨ s.joinable) ∧ ¬s.stopping then
    ({ s with stopping := true, finalizer := finalizer, queue := [] },
      { task with calls := .cancelling owner s.queue :: task.calls }, [.stopping thread finalizer])
  else s.awaitExit thread owner task

def proceedCall (s : OwnerService) (thread : Nat) (base : OwnerBase) (call : OwnerCall)
    (calls : List OwnerCall) : OwnerService × OwnerTask × List OwnerEvent :=
  match call with
  | .entering => (s, ⟨base, .inline :: calls⟩, [.inlined thread])
  | .inline => (s, ⟨base, calls⟩, [])
  | .invoking request =>
    if (s.requests request).done then
      (s, ⟨base, calls⟩, [.invokeReturned thread request (s.requests request).success])
    else (s, ⟨base, call :: calls⟩, [])
  | .cancelling owner [] => awaitExit { s with cancellationReady := true } thread owner ⟨base, calls⟩
  | .cancelling owner (request :: cancelled) =>
    (s, ⟨base, .retracting owner request cancelled :: calls⟩, [.completed request false])
  | .retracting owner request cancelled =>
    (s.finish request false, ⟨base, .cancelling owner cancelled :: calls⟩, [.finished request false])
  | .awaiting =>
    if ¬s.joining ∧ ¬s.joinable then s.leaveStop thread ⟨base, calls⟩
    else (s, ⟨base, call :: calls⟩, [])
  | .joining =>
    if s.exited then
      leaveStop { s with running := false, stopping := false, joining := false, ownerId := none }
        thread ⟨base, calls⟩
    else (s, ⟨base, call :: calls⟩, [])

def nextWork (s : OwnerService) : OwnerService × OwnerBase × List OwnerEvent :=
  if s.stopping then (s, .awaitingReady, [])
  else
    match s.queue with
    | request :: rest => ({ s with queue := rest }, .claimed request, [.claimed request])
    | [] => (s, if s.idle then .idling else .looping, [])

def proceedBase (s : OwnerService) (thread : Nat) (base : OwnerBase) (idleDue : Bool) :
    OwnerService × OwnerBase × List OwnerEvent :=
  match base with
  | .starting => ({ s with ownerId := some thread }, .looping, [])
  | .looping => s.nextWork
  | .claimed request => (s, .running request, [.began request])
  | .ran request success => (s, .completing request success, [.completed request success])
  | .completing request success =>
    (s.finish request success, .afterRequest, [.finished request success])
  | .afterRequest => (s, if s.idle && idleDue && !s.stopping then .idling else .looping, [])
  | .awaitingReady =>
    if s.cancellationReady then
      ({ s with finalizer := none }, .finalizing s.finalizer, [.finalizing s.finalizer])
    else (s, base, [])
  | .finalized outcome =>
    ({ s with finalOutcome := outcome && !s.idleFailed, ownerId := none }, .exiting, [])
  | .exiting => ({ s with exited := true }, .exited, [])
  | _ => (s, base, [])

def endBase (s : OwnerService) (base : OwnerBase) (success : Bool) :
    OwnerService × OwnerBase × List OwnerEvent :=
  match base with
  | .running request => (s, .ran request success, [.ended request success])
  | .idling => ({ s with idleFailed := s.idleFailed || !success }, .looping, [])
  | .finalizing finalizer => (s, .finalized (finalizer.isNone || success), [.finalized])
  | _ => (s, base, [])

def step (s : OwnerService) (thread : Nat) (task : OwnerTask) (move : OwnerMove) :
    OwnerService × OwnerTask × List OwnerEvent :=
  match move, task.calls with
  | .invoke callback allocated, _ =>
    if task.isUserCode then s.invoke thread task callback allocated else (s, task, [])
  | .submit callback allocated, _ =>
    if task.isUserCode then s.submit thread task callback allocated else (s, task, [])
  | .stop finalizer, _ =>
    if task.isUserCode then s.stop thread task finalizer else (s, task, [])
  | .ends success, [] =>
    let (s, base, said) := s.endBase task.base success
    (s, ⟨base, []⟩, said)
  | .ends _, _ :: _ => (s, task, [])
  | .proceed idleDue, [] =>
    let (s, base, said) := s.proceedBase thread task.base idleDue
    (s, ⟨base, []⟩, said)
  | .proceed _, call :: calls => s.proceedCall thread task.base call calls

end OwnerService

end EdvrPatch.OpenXr
