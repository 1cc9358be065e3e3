import EdvrPatch.Gpu.QueryProtocol

/-! The clock of `gpu_disjoint_clock.h`: frequency and validity shared by timestamp pairs that are
owned apart. The backend is free. What it answers to its `n`-th call is `answers n`, and each call
about a query object is recorded. The counters stop before they would go round, so they are natural
numbers. -/
namespace EdvrPatch.Gpu

structure GpuSpanOwner where
  device : Nat := 0
  context : Nat := 0
  thread : Nat := 0
  immediate : Bool := true
  deriving DecidableEq, Repr

/-- The identity a call must come from: `actual` is what the device says now. -/
def GpuSpanOwner.matches (owner actual : GpuSpanOwner) : Bool :=
  owner.device != 0 && owner.context != 0 && owner.thread != 0 && owner.immediate &&
    actual.device == owner.device && actual.context == owner.context &&
    actual.thread == owner.thread && actual.immediate

inductive DisjointStatus where
  | pending
  | ready
  | failed
  deriving DecidableEq, Repr

inductive DisjointReason where
  | none
  | invalidLease
  | wrongOwner
  | incomplete
  | driverFailure
  | disjoint
  | zeroFrequency
  | stale
  deriving DecidableEq, Repr

structure DisjointResult where
  status : DisjointStatus := .pending
  frequency : Nat := 0
  disjoint : Bool := false
  reason : DisjointReason := .none
  deriving DecidableEq, Repr

def DisjointResult.failure (why : DisjointReason) : DisjointResult :=
  { status := .failed, reason := why }

/-- One answer of the backend; which part of it is read depends on the call. -/
structure Answer where
  owner : GpuSpanOwner := {}
  ok : Bool := true
  result : DisjointResult := {}

def kRecords : Nat := 8
def kLeases : Nat := 32
def kMaxAgeMs : Nat := 2000
def uint64Max : Nat := 2 ^ 64 - 1

/-- An inert token; `clock = 0` is the token that was refused. -/
structure Lease where
  clock : Nat := 0
  generation : Nat := 0
  serial : Nat := 0
  record : Nat := 0
  index : Nat := 0
  deriving DecidableEq, Repr

inductive LeaseKind where
  | borrowed
  | standalone
  | frame
  deriving DecidableEq, Repr

inductive RecordState where
  | idle
  | opened
  | pending
  | complete
  deriving DecidableEq, Repr

structure LeaseState where
  serial : Nat := 0
  kind : LeaseKind := .borrowed
  occupied : Bool := false
  ended : Bool := false
  invalid : Bool := false
  deriving DecidableEq, Repr

structure Record where
  state : RecordState := .idle
  created : Bool := false
  generation : Nat := 0
  nextSerial : Nat := 0
  closedAt : Nat := 0
  refs : Nat := 0
  result : DisjointResult := {}
  leases : Fin kLeases → LeaseState := fun _ => {}

namespace Record

def opened (r : Record) : Record :=
  { r with generation := r.generation + 1, state := .opened, result := {} }

def setLease (r : Record) (j : Fin kLeases) (lease : LeaseState) : Record :=
  { r with leases := Function.update r.leases j lease }

def lend (r : Record) (j : Fin kLeases) (kind : LeaseKind) : Record :=
  { r.setLease j { serial := r.nextSerial + 1, kind := kind, occupied := true } with
    nextSerial := r.nextSerial + 1
    refs := r.refs + 1 }

def freeLease (r : Record) : Option (Fin kLeases) :=
  (List.finRange kLeases).find? fun j => !(r.leases j).occupied

/-- The scope has ended: a lease that has not is worth nothing any more. -/
def closed (r : Record) (ok : Bool) (now : Nat) : Record :=
  { r with
    closedAt := now
    state := if ok then .pending else .complete
    result := if ok then r.result else .failure .driverFailure
    leases := fun j =>
      if (r.leases j).occupied ∧ ¬(r.leases j).ended then { r.leases j with invalid := true }
      else r.leases j }

end Record

structure DisjointClock where
  id : Nat
  owner : GpuSpanOwner
  records : Fin kRecords → Record := fun _ => {}
  active : Option (Fin kRecords) := none
  stopped : Bool := false
  shut : Bool := false
  asked : Nat := 0
  log : List (QueryCall kRecords) := []

namespace DisjointClock

def tick (c : DisjointClock) : DisjointClock :=
  { c with asked := c.asked + 1 }

def record (c : DisjointClock) (call : QueryCall kRecords) : DisjointClock :=
  { c with log := c.log ++ [call] }

def setRecord (c : DisjointClock) (i : Fin kRecords) (r : Record) : DisjointClock :=
  { c with records := Function.update c.records i r }

section

variable (answers : Nat → Answer)

def ownerOk (c : DisjointClock) : Bool × DisjointClock :=
  (c.owner.matches (answers c.asked).owner, c.tick)

def create (c : DisjointClock) (i : Fin kRecords) : Bool × DisjointClock :=
  ((answers c.asked).ok, c.tick.record (.create i (answers c.asked).ok))

def beginQuery (c : DisjointClock) (i : Fin kRecords) : Bool × DisjointClock :=
  ((answers c.asked).ok, c.tick.record (.begins i (answers c.asked).ok))

def endQuery (c : DisjointClock) (i : Fin kRecords) : Bool × DisjointClock :=
  ((answers c.asked).ok, c.tick.record (.ends i (answers c.asked).ok))

def pollQuery (c : DisjointClock) (i : Fin kRecords) : DisjointResult × DisjointClock :=
  ((answers c.asked).result, c.tick.record (.poll i))

def destroy (c : DisjointClock) (i : Fin kRecords) : DisjointClock :=
  c.tick.record (.destroy i)

/-- The record and the lease a token points to, when it is valid. -/
def valid (c : DisjointClock) (t : Lease) : Option (Fin kRecords × Fin kLeases) :=
  if t.clock ≠ c.id then none
  else if bound : t.record < kRecords ∧ t.index < kLeases then
    let i : Fin kRecords := ⟨t.record, bound.1⟩
    let j : Fin kLeases := ⟨t.index, bound.2⟩
    let r := c.records i
    let l := r.leases j
    if r.state ≠ .idle ∧ r.generation = t.generation ∧ l.occupied ∧ l.serial = t.serial then
      some (i, j)
    else none
  else none

def allocate (c : DisjointClock) (i : Fin kRecords) (kind : LeaseKind) : Lease × DisjointClock :=
  let r := c.records i
  match r.freeLease with
  | none => ({}, c)
  | some j =>
    if r.nextSerial = uint64Max then ({}, c)
    else
      ({ clock := c.id, generation := r.generation, serial := r.nextSerial + 1, record := i,
         index := j },
        c.setRecord i (r.lend j kind))

def ensureCreated (c : DisjointClock) (i : Fin kRecords) : Bool × DisjointClock :=
  if (c.records i).created then (true, c)
  else
    match c.create answers i with
    | (false, c) => (false, c)
    | (true, c) => (true, c.setRecord i { c.records i with created := true })

def opened (c : DisjointClock) (i : Fin kRecords) : DisjointClock :=
  { c.setRecord i (c.records i).opened with active := some i }

def openRecord (c : DisjointClock) (kind : LeaseKind) : Lease × DisjointClock :=
  match (List.finRange kRecords).find? fun i =>
    (c.records i).state = .idle ∧ (c.records i).generation ≠ uint64Max with
  | none => ({}, c)
  | some i =>
    match c.ensureCreated answers i with
    | (false, c) => ({}, c)
    | (true, c) =>
      match c.beginQuery answers i with
      | (false, c) =>
        let c := c.destroy i
        ({}, c.setRecord i { c.records i with created := false })
      | (true, c) => (c.opened i).allocate i kind

def close (c : DisjointClock) (i : Fin kRecords) (now : Nat) : Bool × DisjointClock :=
  match c.endQuery answers i with
  | (ok, c) =>
    (ok, { c.setRecord i ((c.records i).closed ok now) with
      active := none
      stopped := c.stopped || !ok })

/-- A record that nothing points to is freed; its objects stay when they work. -/
def retire (c : DisjointClock) (i : Fin kRecords) : DisjointClock :=
  let r := c.records i
  if r.refs ≠ 0 ∨ r.state ≠ .complete then c
  else
    let keep := r.created && r.result.status = .ready
    let c := if r.created && !keep then c.destroy i else c
    c.setRecord i { created := keep, generation := r.generation }

def judged (result : DisjointResult) : DisjointResult :=
  match result.status with
  | .ready =>
    if result.disjoint then .failure .disjoint
    else if result.frequency = 0 then .failure .zeroFrequency
    else result
  | .failed => .failure .driverFailure
  | .pending => result

def outcome (c : DisjointClock) (i : Fin kRecords) (now : Nat) : DisjointResult × DisjointClock :=
  let r := c.records i
  if c.stopped then (.failure .driverFailure, c)
  else if r.closedAt ≤ now ∧ kMaxAgeMs < now - r.closedAt then (.failure .stale, c)
  else
    match c.pollQuery answers i with
    | (result, c) => (judged result, c)

def update (c : DisjointClock) (i : Fin kRecords) (now : Nat) : DisjointClock :=
  if (c.records i).state ≠ .pending then c
  else
    match c.outcome answers i now with
    | (result, c) =>
      let state := if result.status = .pending then .pending else .complete
      (c.setRecord i { c.records i with result := result, state := state }).retire i

def collect (c : DisjointClock) (now : Nat) : Bool × DisjointClock :=
  match c.ownerOk answers with
  | (ok, c) =>
    if !ok || c.shut then (false, c)
    else (true, (List.finRange kRecords).foldl (fun c i => c.update answers i now) c)

def startFrame (c : DisjointClock) (now : Nat) : Lease × DisjointClock :=
  match c.ownerOk answers with
  | (ok, c) =>
    if !ok || c.stopped || c.shut || c.active.isSome then ({}, c)
    else (c.collect answers now).2.openRecord answers .frame

def acquireInterval (c : DisjointClock) (now : Nat) : Lease × DisjointClock :=
  match c.ownerOk answers with
  | (ok, c) =>
    if !ok || c.stopped || c.shut then ({}, c)
    else
      match c.active with
      | some i => c.allocate i .borrowed
      | none => (c.collect answers now).2.openRecord answers .standalone

def acquireBorrowedFrame (c : DisjointClock) : Lease × DisjointClock :=
  match c.ownerOk answers with
  | (ok, c) =>
    if !ok || c.stopped || c.shut then ({}, c)
    else
      match c.active with
      | none => ({}, c)
      | some i =>
        if ∃ j, ((c.records i).leases j).occupied ∧ ((c.records i).leases j).kind = .frame ∧
            ¬((c.records i).leases j).ended ∧ ¬((c.records i).leases j).invalid then
          c.allocate i .borrowed
        else ({}, c)

def endLease (c : DisjointClock) (i : Fin kRecords) (j : Fin kLeases) : DisjointClock :=
  c.setRecord i ((c.records i).setLease j { (c.records i).leases j with ended := true })

def endInterval (c : DisjointClock) (t : Lease) (now : Nat) : Bool × DisjointClock :=
  match c.ownerOk answers with
  | (ok, c) =>
    if !ok || c.shut then (false, c)
    else
      match c.valid t with
      | none => (false, c)
      | some (i, j) =>
        let r := c.records i
        let l := r.leases j
        if r.state ≠ .opened ∨ l.kind = .frame ∨ l.ended ∨ l.invalid then (false, c)
        else if l.kind = .standalone then (c.endLease i j).close answers i now
        else (true, c.endLease i j)

def finishFrame (c : DisjointClock) (t : Lease) (now : Nat) : Bool × DisjointClock :=
  match c.ownerOk answers with
  | (ok, c) =>
    if !ok || c.shut then (false, c)
    else
      match c.valid t with
      | none => (false, c)
      | some (i, j) =>
        let r := c.records i
        let l := r.leases j
        if r.state ≠ .opened ∨ l.kind ≠ .frame ∨ l.ended then (false, c)
        else (c.endLease i j).close answers i now

def poll (c : DisjointClock) (t : Lease) (now : Nat) : DisjointResult × DisjointClock :=
  match c.ownerOk answers with
  | (ok, c) =>
    if !ok then (.failure .wrongOwner, c)
    else if c.shut then (.failure .invalidLease, c)
    else
      match c.valid t with
      | none => (.failure .invalidLease, c)
      | some (i, j) =>
        let l := (c.records i).leases j
        if l.invalid then (.failure .incomplete, c)
        else if !l.ended then ({}, c)
        else
          let c := c.update answers i now
          ((c.records i).result, c)

def dropLease (c : DisjointClock) (i : Fin kRecords) (j : Fin kLeases) : DisjointClock :=
  let r := c.records i
  let r := { r.setLease j { r.leases j with occupied := false } with refs := r.refs - 1 }
  (c.setRecord i r).retire i

def release (c : DisjointClock) (t : Lease) (now : Nat) : Bool × DisjointClock :=
  match c.ownerOk answers with
  | (ok, c) =>
    if !ok || c.shut then (false, c)
    else
      match c.valid t with
      | none => (false, c)
      | some (i, j) =>
        let r := c.records i
        let c := if r.state = .opened ∧ (r.leases j).kind ≠ .borrowed then
            (c.close answers i now).2
          else c
        (true, c.dropLease i j)

def wipe (c : DisjointClock) (i : Fin kRecords) : DisjointClock :=
  let d := if (c.records i).created then c.destroy i else c
  d.setRecord i {}

def closeActive (c : DisjointClock) (now : Nat) : DisjointClock :=
  match c.active with
  | some i => (c.close answers i now).2
  | none => c

def shutdown (c : DisjointClock) (now : Nat) : Bool × DisjointClock :=
  match c.ownerOk answers with
  | (ok, c) =>
    if !ok || c.shut then (false, c)
    else
      (true, { (List.finRange kRecords).foldl wipe (c.closeActive answers now) with shut := true })

end

def fresh (id : Nat) (owner : GpuSpanOwner) : DisjointClock :=
  { id := id, owner := owner }

end DisjointClock

inductive ClockCall where
  | startFrame (now : Nat)
  | acquireInterval (now : Nat)
  | acquireBorrowedFrame
  | endInterval (t : Lease) (now : Nat)
  | finishFrame (t : Lease) (now : Nat)
  | poll (t : Lease) (now : Nat)
  | release (t : Lease) (now : Nat)
  | collect (now : Nat)
  | shutdown (now : Nat)
  deriving DecidableEq, Repr

def DisjointClock.perform (answers : Nat → Answer) (c : DisjointClock) : ClockCall → DisjointClock
  | .startFrame now => (c.startFrame answers now).2
  | .acquireInterval now => (c.acquireInterval answers now).2
  | .acquireBorrowedFrame => (c.acquireBorrowedFrame answers).2
  | .endInterval t now => (c.endInterval answers t now).2
  | .finishFrame t now => (c.finishFrame answers t now).2
  | .poll t now => (c.poll answers t now).2
  | .release t now => (c.release answers t now).2
  | .collect now => (c.collect answers now).2
  | .shutdown now => (c.shutdown answers now).2

def DisjointClock.run (answers : Nat → Answer) (c : DisjointClock) (calls : List ClockCall) :
    DisjointClock :=
  calls.foldl (·.perform answers) c

end EdvrPatch.Gpu
