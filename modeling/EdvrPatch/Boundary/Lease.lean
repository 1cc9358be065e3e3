import EdvrPatch.Lib.Traced

/-! The render boundary of `render_boundary.cpp`: one owner, the lease it has out, and the callback
that each Present of the render thread makes. A critical section is one step. The callback is not:
from its admission to the decrement it is on the thread's stack, and may make calls of its own. -/
namespace EdvrPatch.Boundary

/-- `owned` says that the lease still has its module, which a release takes from it.
`freed` counts how often it was deleted. -/
structure Lease where
  admitted : Bool := true
  active : Nat := 0
  owned : Bool := true
  freed : Nat := 0
  deriving DecidableEq, Repr

/-- What a thread is in the middle of: the callback, the steps that follow it, or the
end of a release. -/
inductive Frame where
  | callback (l : Nat)
  | failing (l : Nat)
  | leaving (l : Nat)
  | releasing (l : Nat)
  deriving DecidableEq, Repr

structure RenderBoundary where
  owner : Bool := false
  renderThread : Option Nat := none
  firstPresentThread : Option Nat := none
  lease : Option Nat := none
  leases : List Lease := []
  stackOf : Nat → List Frame := fun _ => []

inductive BoundaryMove where
  /-- `fits` says that the device is the one of the first Present, if there was one. -/
  | registerOwner (fits : Bool)
  /-- `ours` says that the Present is of the owner's device. -/
  | noteOwnedPresent (ours : Bool)
  | present (ours : Bool)
  /-- `granted` says that the request, the device and the memory are all right. -/
  | acquire (granted : Bool)
  | close (l : Nat)
  | release (l : Nat)
  | callbackReturns (failed : Bool)
  | proceed

inductive BoundaryEvent where
  | acquired (l : Nat)
  | closed (l : Nat) (ok : Bool)
  | released (l : Nat) (ok : Bool)
  | freed (l : Nat)
  /-- A Present reads or writes the lease. -/
  | touched (thread l : Nat)
  | began (thread l : Nat)
  | returned (thread l : Nat) (failed : Bool)
  /-- A Present of another thread finds the lease. -/
  | foreign (thread l : Nat)
  deriving DecidableEq, Repr

namespace RenderBoundary

def change (r : RenderBoundary) (l : Nat) (f : Lease → Lease) : RenderBoundary :=
  { r with leases := r.leases.modify l f }

def setStack (r : RenderBoundary) (thread : Nat) (stack : List Frame) : RenderBoundary :=
  { r with stackOf := fun t => if t = thread then stack else r.stackOf t }

def registerOwner (r : RenderBoundary) (fits : Bool) : RenderBoundary :=
  if r.owner ∨ ¬fits then r
  else { r with owner := true, renderThread := r.firstPresentThread }

def noteOwnedPresent (r : RenderBoundary) (thread : Nat) (ours : Bool) : RenderBoundary :=
  if r.owner then
    if ours ∧ r.renderThread = none then { r with renderThread := some thread } else r
  else if r.firstPresentThread = none then { r with firstPresentThread := some thread }
  else r

def present (r : RenderBoundary) (thread : Nat) (ours : Bool) : RenderBoundary × List BoundaryEvent :=
  if ¬r.owner ∨ ¬ours ∨ r.renderThread = none then (r, [])
  else
    match r.lease with
    | none => (r, [])
    | some l =>
      if r.renderThread ≠ some thread then
        (r.change l fun lease => { lease with admitted := false },
          [.touched thread l, .foreign thread l])
      else
        match r.leases[l]? with
        | none => (r, [])
        | some lease =>
          -- A Present from within the callback must not make it again.
          if ¬lease.admitted ∨ lease.active ≠ 0 then (r, [.touched thread l])
          else
            ((r.change l fun lease => { lease with active := lease.active + 1 }).setStack thread
                (.callback l :: r.stackOf thread),
              [.touched thread l, .began thread l])

def acquire (r : RenderBoundary) (granted : Bool) : RenderBoundary × List BoundaryEvent :=
  if ¬r.owner ∨ ¬granted ∨ r.lease.isSome then (r, [])
  else
    ({ r with lease := some r.leases.length, leases := r.leases ++ [{}] },
      [.acquired r.leases.length])

def close (r : RenderBoundary) (l : Nat) : RenderBoundary × List BoundaryEvent :=
  match r.leases[l]? with
  | none => (r, [])
  | some lease =>
    (r.change l fun lease => { lease with admitted := false }, [.closed l (lease.active == 0)])

def release (r : RenderBoundary) (thread l : Nat) : RenderBoundary × List BoundaryEvent :=
  match r.leases[l]? with
  | none => (r, [])
  | some lease =>
    let closed := r.change l fun lease => { lease with admitted := false }
    if lease.active ≠ 0 then (closed, [.released l false])
    else
      (({ closed with lease := if r.lease = some l then none else r.lease }.change l fun lease =>
          { lease with owned := false }).setStack thread (.releasing l :: r.stackOf thread), [])

/-- A thread may begin a call when it is in none, or in the callback. -/
def free (r : RenderBoundary) (thread : Nat) : Bool :=
  match r.stackOf thread with
  | [] => true
  | .callback _ :: _ => true
  | _ => false

/-- The steps that follow the callback, and the end of a release. -/
def proceed (r : RenderBoundary) (thread : Nat) : RenderBoundary × List BoundaryEvent :=
  match r.stackOf thread with
  | .failing l :: rest =>
    ((r.change l fun lease => { lease with admitted := false }).setStack thread
      (.leaving l :: rest), [.touched thread l])
  | .leaving l :: rest =>
    ((r.change l fun lease => { lease with active := lease.active - 1 }).setStack thread rest,
      [.touched thread l])
  | .releasing l :: rest =>
    ((r.change l fun lease => { lease with freed := lease.freed + 1 }).setStack thread rest,
      [.freed l, .released l true])
  | _ => (r, [])

def callbackReturns (r : RenderBoundary) (thread : Nat) (failed : Bool) :
    RenderBoundary × List BoundaryEvent :=
  match r.stackOf thread with
  | .callback l :: rest =>
    (r.setStack thread ((if failed then .failing l else .leaving l) :: rest),
      [.returned thread l failed])
  | _ => (r, [])

def step (r : RenderBoundary) (thread : Nat) (move : BoundaryMove) :
    RenderBoundary × List BoundaryEvent :=
  match move with
  | .proceed => r.proceed thread
  | .callbackReturns failed => r.callbackReturns thread failed
  | move =>
    if ¬r.free thread then (r, [])
    else
      match move with
      | .registerOwner fits => (r.registerOwner fits, [])
      | .noteOwnedPresent ours => (r.noteOwnedPresent thread ours, [])
      | .present ours => r.present thread ours
      | .acquire granted => r.acquire granted
      | .close l => r.close l
      | .release l => r.release thread l
      | _ => (r, [])

end RenderBoundary

def boundaryAfter (moves : List (Nat × BoundaryMove)) : RenderBoundary × List BoundaryEvent :=
  Lib.traced (fun r move => r.step move.1 move.2) {} moves

/-- What is seen in the moves `after`, made after the moves `before`. -/
def boundaryEvents (before after : List (Nat × BoundaryMove)) : List BoundaryEvent :=
  Lib.saidAfter (fun r move => RenderBoundary.step r move.1 move.2) {} before after

end EdvrPatch.Boundary
