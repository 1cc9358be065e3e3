import EdvrPatch.Lib.Threads

/-! The coordinator of `runtime_lifecycle.h` under any number of callers. Each critical
section is a step, and the backend's `start` and `stop` last from the step that calls
them to the one in which they return. -/
namespace EdvrPatch.OpenXr

open Lib

inductive InitError where
  | none
  | interfaceNotFound
  | invalidInterface
  | notInitialized
  | retry
  | shuttingDown
  | tooManyObjects
  | notSupportedWithCompositor
  | internal
  | other (code : Nat)
  deriving DecidableEq, Repr

structure RuntimeInterfaces where
  system : Option Nat := none
  compositor : Option Nat := none
  chaperone : Option Nat := none
  display : Option Nat := none
  deriving DecidableEq, Repr

def RuntimeInterfaces.complete (i : RuntimeInterfaces) : Bool :=
  i.system.isSome && i.compositor.isSome && i.chaperone.isSome && i.display.isSome

def interfaceSlot (version : String) : Option (RuntimeInterfaces → Option Nat) :=
  if version = "IVRSystem_012" then some (·.system)
  else if version = "IVRCompositor_014" then some (·.compositor)
  else if version = "IVRChaperone_003" then some (·.chaperone)
  else if version = "IVRExtendedDisplay_001" then some (·.display)
  else none

inductive LifecycleState where
  | idle
  | starting
  | running
  | stopping
  | failed
  deriving DecidableEq, Repr

structure RuntimeLifecycle where
  state : LifecycleState := .idle
  token : Nat := 0
  cancelled : Bool := false
  interfaces : RuntimeInterfaces := {}
  deriving DecidableEq, Repr

/-- Where a caller is: in the backend's `start`, back from it, in its `stop`, back from
it. The last two are those of a shutdown. -/
inductive LifecycleTask where
  | idle
  | starting
  | started (result : InitError) (candidate : RuntimeInterfaces)
  | cleaning (result : InitError)
  | cleaned (result : InitError) (stopped : Bool)
  | stopping
  | stopped (stopped : Bool)
  deriving DecidableEq, Repr

inductive LifecycleMove where
  | init (scene : Bool)
  | shutdown
  | getInterface (version : Option String)
  | startReturns (result : InitError) (candidate : RuntimeInterfaces)
  | stopReturns (stopped : Bool)
  | proceed
  deriving DecidableEq, Repr

/-- What is seen of the calls. An `init` returns a token, or 0 with an error; a shutdown
is called, whatever the coordinator makes of it. -/
inductive LifecycleEvent where
  | startBegan (thread attempt : Nat)
  | startEnded (thread : Nat) (success : Bool)
  | stopBegan (thread : Nat)
  | stopEnded (thread : Nat) (stopped : Bool)
  | initReturned (thread token : Nat) (error : InitError)
  | shutdownCalled (thread : Nat)
  | shutdownReturned (thread : Nat)
  | interfaceReturned (thread : Nat) (interface : Option Nat) (error : InitError)
  deriving DecidableEq, Repr

namespace RuntimeLifecycle

/-- The first critical section of `init`. The token after the one that is taken is
reserved for the shutdown. -/
def enter (r : RuntimeLifecycle) (thread : Nat) (scene : Bool) :
    RuntimeLifecycle × LifecycleTask × List LifecycleEvent :=
  let fail (error : InitError) := (r, LifecycleTask.idle, [LifecycleEvent.initReturned thread 0 error])
  if ¬scene then fail .notSupportedWithCompositor
  else
    match r.state with
    | .running => (r, .idle, [.initReturned thread r.token .none])
    | .starting => fail .retry
    | .stopping => fail .shuttingDown
    | .failed => fail .internal
    | .idle =>
      if 2 ^ 32 - 1 - 2 < r.token then fail .tooManyObjects
      else
        ({ r with token := r.token + 1, cancelled := false, state := .starting }, .starting,
          [.startBegan thread (r.token + 1)])

def settle (r : RuntimeLifecycle) (thread : Nat) (result : InitError) (candidate : RuntimeInterfaces) :
    RuntimeLifecycle × LifecycleTask × List LifecycleEvent :=
  if r.state = .starting ∧ result = .none ∧ candidate.complete then
    ({ r with interfaces := candidate, state := .running }, .idle,
      [.initReturned thread r.token .none])
  else
    let result := if r.cancelled then .shuttingDown
      else if result = .none then .interfaceNotFound else result
    ({ r with state := .stopping, interfaces := {} }, .cleaning result, [.stopBegan thread])

def settleStop (r : RuntimeLifecycle) (stopped : Bool) : RuntimeLifecycle :=
  { r with state := if stopped then .idle else .failed }

def shutdown (r : RuntimeLifecycle) (thread : Nat) :
    RuntimeLifecycle × LifecycleTask × List LifecycleEvent :=
  match r.state with
  | .idle | .failed | .stopping => (r, .idle, [.shutdownCalled thread, .shutdownReturned thread])
  | .starting =>
    ({ r with state := .stopping, interfaces := {}, token := r.token + 1, cancelled := true }, .idle,
      [.shutdownCalled thread, .shutdownReturned thread])
  | .running =>
    ({ r with state := .stopping, interfaces := {}, token := r.token + 1, cancelled := true }, .stopping,
      [.shutdownCalled thread, .stopBegan thread])

def getInterface (r : RuntimeLifecycle) (version : Option String) : Option Nat × InitError :=
  match version with
  | none => (none, .invalidInterface)
  | some version =>
    match interfaceSlot version with
    | none => (none, .interfaceNotFound)
    | some select => if r.state = .running then (select r.interfaces, .none) else (none, .notInitialized)

def step (r : RuntimeLifecycle) (thread : Nat) (task : LifecycleTask) (move : LifecycleMove) :
    RuntimeLifecycle × LifecycleTask × List LifecycleEvent :=
  match task, move with
  | .idle, .init scene => r.enter thread scene
  | .idle, .shutdown => r.shutdown thread
  | .idle, .getInterface version =>
    (r, .idle, [.interfaceReturned thread (r.getInterface version).1 (r.getInterface version).2])
  | .starting, .startReturns result candidate =>
    (r, .started result candidate, [.startEnded thread (decide (result = .none))])
  | .started result candidate, .proceed => r.settle thread result candidate
  | .cleaning result, .stopReturns stopped => (r, .cleaned result stopped, [.stopEnded thread stopped])
  | .cleaned result stopped, .proceed => (r.settleStop stopped, .idle, [.initReturned thread 0 result])
  | .stopping, .stopReturns stopped => (r, .stopped stopped, [.stopEnded thread stopped])
  | .stopped stopped, .proceed => (r.settleStop stopped, .idle, [.shutdownReturned thread])
  | task, _ => (r, task, [])

end RuntimeLifecycle

end EdvrPatch.OpenXr
