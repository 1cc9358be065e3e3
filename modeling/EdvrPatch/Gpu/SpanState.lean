import EdvrPatch.Gpu.DisjointClock

/-! The timing instrument of `gpu_span_state.h`. Eye frames and segmented application frames share
its slots. The driver is free: what it answers to its `n`-th call is `answers n`, and each call is
recorded with the part of the instrument that made it. Times are kept as the ticks they come from.
-/
namespace EdvrPatch.Gpu

inductive GpuSpanPoll where
  | pending
  | ready
  | failed
  deriving DecidableEq, Repr

inductive GpuSpanReason where
  | valid
  | wrongOwner
  | stopped
  | oldSequence
  | noOpenFrame
  | incomplete
  | badPair
  | driverFailure
  | disjoint
  | zeroFrequency
  | badTimestamps
  | stale
  | ringFull
  | createFailed
  deriving DecidableEq, Repr

inductive GpuSpanSource where
  | renderToSubmit
  | applicationRender
  deriving DecidableEq, Repr

/-- What a poll reads; `ticks k` is what the timestamp of index `k` has measured. -/
structure GpuSpanRawSample where
  timestampsReady : Bool := false
  disjoint : Bool := false
  frequency : Nat := 0
  ticks : Nat → Nat := fun _ => 0

structure SpanAnswer where
  ok : Bool := true
  poll : GpuSpanPoll := .pending
  raw : GpuSpanRawSample := {}

structure GpuSpanResult where
  sequence : Nat := 0
  sourceFrame : Nat := 0
  completedAtMs : Nat := 0
  ageMs : Nat := 0
  outerTicks : Nat := 0
  leftTicks : Nat := 0
  rightTicks : Nat := 0
  frequency : Nat := 0
  reason : GpuSpanReason := .incomplete
  source : GpuSpanSource := .renderToSubmit
  deriving DecidableEq, Repr

def kSlots : Nat := 8
def kMarkers : Nat := 8

inductive SlotState where
  | free
  | opened
  | pending
  | failed
  deriving DecidableEq, Repr

/-- `begun` and `ended` have one bit an eye; `order` lists the eyes as they began. -/
structure Slot where
  state : SlotState := .free
  created : Bool := false
  reason : GpuSpanReason := .valid
  sequence : Nat := 0
  sourceFrame : Nat := 0
  closedAtMs : Nat := 0
  begun : Nat := 0
  ended : Nat := 0
  order : List Nat := []
  activeEye : Option Nat := none
  application : Bool := false
  segmentOpen : Bool := false
  segmentCount : Nat := 0
  deriving DecidableEq, Repr

/-- Who has a timestamp taken: the frame at its ends, an eye, a segment, or the
closing of an application frame whose segment is still open. -/
inductive Stamper where
  | frame
  | eye
  | segment
  | closing
  deriving DecidableEq, Repr

structure Issued where
  call : QueryCall kSlots
  stamper : Stamper := .frame
  deriving DecidableEq, Repr

structure GpuSpanState where
  owner : GpuSpanOwner
  slots : Fin kSlots → Slot := fun _ => {}
  opened : Option (Fin kSlots) := none
  lastSequence : Nat := 0
  failed : Bool := false
  shut : Bool := false
  asked : Nat := 0
  log : List Issued := []

namespace GpuSpanState

def setSlot (g : GpuSpanState) (i : Fin kSlots) (s : Slot) : GpuSpanState :=
  { g with slots := Function.update g.slots i s }

def gate (g : GpuSpanState) (owner : GpuSpanOwner) : GpuSpanReason :=
  if !g.owner.matches owner then .wrongOwner
  else if g.failed || g.shut then .stopped
  else .valid

def segmentEnd (segmentCount : Nat) : Nat :=
  (2 ^ 32 - 1 + 2 * segmentCount) % 2 ^ 32

def age (now then_ : Nat) : Nat :=
  now - then_

section

variable (answers : Nat → SpanAnswer)

def issue (g : GpuSpanState) (call : Bool → QueryCall kSlots) (stamper : Stamper) :
    Bool × GpuSpanState :=
  ((answers g.asked).ok,
    { g with asked := g.asked + 1, log := g.log ++ [⟨call (answers g.asked).ok, stamper⟩] })

def create (g : GpuSpanState) (i : Fin kSlots) : Bool × GpuSpanState :=
  g.issue answers (.create i) .frame

def beginScope (g : GpuSpanState) (i : Fin kSlots) : Bool × GpuSpanState :=
  g.issue answers (.begins i) .frame

def timestamp (g : GpuSpanState) (i : Fin kSlots) (index : Nat) (stamper : Stamper) :
    Bool × GpuSpanState :=
  g.issue answers (.timestamp i index) stamper

def endScope (g : GpuSpanState) (i : Fin kSlots) : Bool × GpuSpanState :=
  g.issue answers (.ends i) .frame

def pollDriver (g : GpuSpanState) (i : Fin kSlots) :
    GpuSpanPoll × GpuSpanRawSample × GpuSpanState :=
  ((answers g.asked).poll, (answers g.asked).raw, (g.issue answers (fun _ => .poll i) .frame).2)

def destroy (g : GpuSpanState) (i : Fin kSlots) : GpuSpanState :=
  (g.issue answers (fun _ => .destroy i) .frame).2

def settle (g : GpuSpanState) (i : Fin kSlots) (ended : Bool) (reason : GpuSpanReason) (now : Nat) :
    GpuSpanReason × GpuSpanState :=
  (reason,
    { g.setSlot i { g.slots i with reason := reason, closedAtMs := now, state := .pending } with
      opened := none
      failed := g.failed || !ended })

def close (g : GpuSpanState) (i : Fin kSlots) (reason : GpuSpanReason) (now : Nat) :
    GpuSpanReason × GpuSpanState :=
  match g.timestamp answers i 1 .frame with
  | (stamp, g) =>
    match g.endScope answers i with
    | (ended, g) => g.settle i ended (if stamp && ended then reason else .driverFailure) now

/-- The segment that an application frame is closed in is ended first. -/
def closeSegment (g : GpuSpanState) (i : Fin kSlots) : Bool × GpuSpanState :=
  let s := g.slots i
  if s.segmentOpen then
    let index := segmentEnd s.segmentCount
    match (if index < kMarkers then g.timestamp answers i index .closing else (false, g)) with
    | (stamp, g) => (stamp, g.setSlot i { g.slots i with segmentOpen := false })
  else (true, g)

def closeApplication (g : GpuSpanState) (i : Fin kSlots) (reason : GpuSpanReason) (now : Nat) :
    GpuSpanReason × GpuSpanState :=
  match g.closeSegment answers i with
  | (stamp, g) =>
    match g.endScope answers i with
    | (ended, g) => g.settle i ended (if stamp && ended then reason else .driverFailure) now

def closeOpen (g : GpuSpanState) (reason : GpuSpanReason) (now : Nat) : GpuSpanState :=
  match g.opened with
  | none => g
  | some i =>
    if (g.slots i).application then (g.closeApplication answers i reason now).2
    else (g.close answers i reason now).2

def retire (g : GpuSpanState) (i : Fin kSlots) (destroys : Bool) : GpuSpanState :=
  let s := g.slots i
  let g := if s.created && destroys then g.destroy answers i else g
  g.setSlot i { created := s.created && !destroys }

def takeSlot (g : GpuSpanState) : Except GpuSpanReason (Fin kSlots) × GpuSpanState :=
  match (List.finRange kSlots).find? fun i => (g.slots i).state = .free with
  | none => (.error .ringFull, g)
  | some i =>
    if (g.slots i).created then (.ok i, g)
    else
      match g.create answers i with
      | (false, g) => (.error .createFailed, g)
      | (true, g) => (.ok i, g.setSlot i { g.slots i with created := true })

/-- What both kinds of frame do before their own scope: the call is checked, the
frame that is still open is closed, and a slot is taken. -/
def enter (g : GpuSpanState) (sequence now : Nat) (owner : GpuSpanOwner) :
    Except GpuSpanReason (Fin kSlots) × GpuSpanState :=
  let checked := g.gate owner
  if checked ≠ .valid then (.error checked, g)
  else if sequence = 0 ∨ sequence ≤ g.lastSequence then (.error .oldSequence, g)
  else
    let g := { g with lastSequence := sequence }.closeOpen answers .incomplete now
    if g.failed then (.error .driverFailure, g) else g.takeSlot answers

def beginFailed (g : GpuSpanState) (i : Fin kSlots) (now : Nat) : GpuSpanReason × GpuSpanState :=
  (.driverFailure,
    g.setSlot i { g.slots i with state := .failed, reason := .driverFailure, closedAtMs := now })

def beginFrame (g : GpuSpanState) (sequence sourceFrame now : Nat) (owner : GpuSpanOwner) :
    GpuSpanReason × GpuSpanState :=
  match g.enter answers sequence now owner with
  | (.error reason, g) => (reason, g)
  | (.ok i, g) =>
    let g := g.setSlot i { g.slots i with sequence := sequence, sourceFrame := sourceFrame }
    match g.beginScope answers i with
    | (false, g) => g.beginFailed i now
    | (true, g) =>
      let g := { g.setSlot i { g.slots i with state := .opened } with opened := some i }
      match g.timestamp answers i 0 .frame with
      | (false, g) => g.close answers i .driverFailure now
      | (true, g) => (.valid, g)

def beginApplicationFrame (g : GpuSpanState) (sequence sourceFrame now : Nat)
    (owner : GpuSpanOwner) : GpuSpanReason × GpuSpanState :=
  match g.enter answers sequence now owner with
  | (.error reason, g) => (reason, g)
  | (.ok i, g) =>
    let g := g.setSlot i
      { created := true, application := true, sequence := sequence, sourceFrame := sourceFrame }
    match g.beginScope answers i with
    | (false, g) => g.beginFailed i now
    | (true, g) =>
      let g := { g.setSlot i { g.slots i with state := .opened, segmentCount := 1 } with
        opened := some i }
      match g.timestamp answers i 0 .segment with
      | (false, g) => g.closeApplication answers i .driverFailure now
      | (true, g) => (.valid, g.setSlot i { g.slots i with segmentOpen := true })

def onOpen (g : GpuSpanState) (owner : GpuSpanOwner)
    (act : Fin kSlots → GpuSpanReason × GpuSpanState) : GpuSpanReason × GpuSpanState :=
  let checked := g.gate owner
  if checked ≠ .valid then (checked, g)
  else
    match g.opened with
    | none => (.noOpenFrame, g)
    | some i => act i

def endApplicationSegment (g : GpuSpanState) (now : Nat) (owner : GpuSpanOwner) :
    GpuSpanReason × GpuSpanState :=
  g.onOpen owner fun i =>
    let s := g.slots i
    if !s.application || !s.segmentOpen || s.segmentCount == 0 || 4 < s.segmentCount then
      g.closeApplication answers i .incomplete now
    else
      match g.timestamp answers i (segmentEnd s.segmentCount) .segment with
      | (false, g) => g.closeApplication answers i .driverFailure now
      | (true, g) => (.valid, g.setSlot i { g.slots i with segmentOpen := false })

def resumeApplicationSegment (g : GpuSpanState) (now : Nat) (owner : GpuSpanOwner) :
    GpuSpanReason × GpuSpanState :=
  g.onOpen owner fun i =>
    let s := g.slots i
    if !s.application || s.segmentOpen || 4 ≤ s.segmentCount then
      (if s.application then .ringFull else .incomplete, g)
    else
      match g.timestamp answers i (2 * s.segmentCount) .segment with
      | (false, g) => g.closeApplication answers i .driverFailure now
      | (true, g) =>
        (.valid, g.setSlot i
          { g.slots i with segmentCount := s.segmentCount + 1, segmentOpen := true })

def finishApplicationFrame (g : GpuSpanState) (now : Nat) (owner : GpuSpanOwner) :
    GpuSpanReason × GpuSpanState :=
  g.onOpen owner fun i =>
    let s := g.slots i
    if !s.application then (.incomplete, g)
    else if s.segmentOpen || s.segmentCount == 0 || s.segmentCount < 3 then
      g.closeApplication answers i .incomplete now
    else
      match g.endScope answers i with
      | (ended, g) => g.settle i ended (if ended then .valid else .driverFailure) now

def beginEye (g : GpuSpanState) (eye now : Nat) (owner : GpuSpanOwner) :
    GpuSpanReason × GpuSpanState :=
  g.onOpen owner fun i =>
    let s := g.slots i
    if 1 < eye || s.activeEye.isSome || s.begun.testBit eye then g.close answers i .badPair now
    else
      match g.timestamp answers i (2 + 2 * eye) .eye with
      | (false, g) => g.close answers i .driverFailure now
      | (true, g) =>
        (.valid, g.setSlot i
          { g.slots i with
            begun := s.begun ||| 2 ^ eye
            activeEye := some eye
            order := s.order ++ [eye] })

def endEye (g : GpuSpanState) (eye now : Nat) (owner : GpuSpanOwner) :
    GpuSpanReason × GpuSpanState :=
  g.onOpen owner fun i =>
    let s := g.slots i
    if 1 < eye || s.activeEye != some eye then g.close answers i .badPair now
    else
      match g.timestamp answers i (3 + 2 * eye) .eye with
      | (false, g) => g.close answers i .driverFailure now
      | (true, g) =>
        (.valid, g.setSlot i { g.slots i with ended := s.ended ||| 2 ^ eye, activeEye := none })

def finishFrame (g : GpuSpanState) (now : Nat) (owner : GpuSpanOwner) :
    GpuSpanReason × GpuSpanState :=
  g.onOpen owner fun i =>
    let s := g.slots i
    g.close answers i (if s.ended = 3 ∧ s.activeEye = none then .valid else .incomplete) now

def invalidateFrame (g : GpuSpanState) (now : Nat) (owner : GpuSpanOwner) :
    GpuSpanReason × GpuSpanState :=
  g.onOpen owner fun i =>
    if (g.slots i).application then g.closeApplication answers i .incomplete now
    else g.close answers i .incomplete now

end

end GpuSpanState

def validate (s : Slot) (raw : GpuSpanRawSample) : GpuSpanReason :=
  if raw.disjoint then .disjoint
  else if raw.frequency = 0 then .zeroFrequency
  else
    let t := raw.ticks
    match s.order with
    | [first, second] =>
      if s.ended ≠ 3 ∨ t 1 < t 0 then .badTimestamps
      else if [0, 1].any fun eye =>
          let k := 2 + 2 * eye
          decide (t (k + 1) < t k ∨ t k < t 0 ∨ t 1 < t (k + 1)) then .badTimestamps
      else if t (2 + 2 * second) < t (3 + 2 * first) then .badTimestamps
      else .valid
    | _ => .badTimestamps

/-- The sum of the segments' widths, when they are in order and it fits 64 bits. -/
def segmentTicks (t : Nat → Nat) : List Nat → Nat → Nat → Option Nat
  | [], sum, _ => some sum
  | n :: rest, sum, previousEnd =>
    let k := 2 * n
    if t (k + 1) < t k ∨ n ≠ 0 ∧ t k < previousEnd then none
    else if uint64Max - (t (k + 1) - t k) < sum then none
    else segmentTicks t rest (sum + (t (k + 1) - t k)) (t (k + 1))

/-- A quotient of two numbers that are not negative is not negative, so the check on
the elapsed time never fails. -/
def validateApplication (s : Slot) (raw : GpuSpanRawSample) : GpuSpanReason × Nat :=
  if raw.disjoint then (.disjoint, 0)
  else if raw.frequency = 0 then (.zeroFrequency, 0)
  else if s.segmentCount < 3 ∨ 4 < s.segmentCount then (.badTimestamps, 0)
  else
    match segmentTicks raw.ticks (List.range s.segmentCount) 0 0 with
    | none => (.badTimestamps, 0)
    | some ticks => (.valid, ticks)

namespace GpuSpanState

section

variable (answers : Nat → SpanAnswer)

/-- What a poll learns about a slot: nothing yet, or a reason and the sample. -/
def sampled (g : GpuSpanState) (i : Fin kSlots) (now : Nat) :
    Option (GpuSpanReason × GpuSpanRawSample) × GpuSpanState :=
  let s := g.slots i
  if g.failed || s.state = .failed then (some (.driverFailure, {}), g)
  else if kMaxAgeMs < age now s.closedAtMs then (some (.stale, {}), g)
  else
    match g.pollDriver answers i with
    | (status, raw, g) =>
      match status with
      | .pending => (none, g)
      | .failed => (some (.driverFailure, raw), g)
      | .ready =>
        if !raw.timestampsReady then (none, g)
        else if s.reason = .valid ∧ ¬s.application then (some (validate s raw, raw), g)
        else (some (s.reason, raw), g)

def resultOf (s : Slot) (reason : GpuSpanReason) (raw : GpuSpanRawSample) (now : Nat) :
    GpuSpanResult :=
  let blank : GpuSpanResult :=
    { sequence := s.sequence, sourceFrame := s.sourceFrame, completedAtMs := now
      ageMs := age now s.closedAtMs }
  if s.application then
    if reason = .valid then
      { blank with
        source := .applicationRender
        reason := (validateApplication s raw).1
        outerTicks := (validateApplication s raw).2
        frequency := raw.frequency }
    else { blank with source := .applicationRender, reason := reason }
  else if reason = .valid then
    { blank with
      reason := .valid
      outerTicks := raw.ticks 1 - raw.ticks 0
      leftTicks := raw.ticks 3 - raw.ticks 2
      rightTicks := raw.ticks 5 - raw.ticks 4
      frequency := raw.frequency }
  else { blank with reason := reason }

def pollSlot (g : GpuSpanState) (i : Fin kSlots) (now : Nat) :
    Option GpuSpanResult × GpuSpanState :=
  let s := g.slots i
  if s.state ≠ .pending ∧ s.state ≠ .failed then (none, g)
  else
    match g.sampled answers i now with
    | (none, g) => (none, g)
    | (some (reason, raw), g) =>
      let result := resultOf s reason raw now
      (some result, g.retire answers i
        (result.reason ≠ .valid ∧ result.reason ≠ .badPair ∧ result.reason ≠ .incomplete))

def pollSlots : List (Fin kSlots) → Nat → GpuSpanState →
    List (Fin kSlots × GpuSpanResult) × GpuSpanState
  | [], _, g => ([], g)
  | i :: rest, now, g =>
    match g.pollSlot answers i now with
    | (none, g) => pollSlots rest now g
    | (some result, g) => ((i, result) :: (pollSlots rest now g).1, (pollSlots rest now g).2)

def poll (g : GpuSpanState) (now : Nat) (owner : GpuSpanOwner) :
    List (Fin kSlots × GpuSpanResult) × GpuSpanState :=
  if !g.owner.matches owner || g.shut then ([], g)
  else pollSlots answers (List.finRange kSlots) now g

def shutdown (g : GpuSpanState) (now : Nat) (owner : GpuSpanOwner) : Bool × GpuSpanState :=
  if !g.owner.matches owner || g.shut then (false, g)
  else
    let g := g.closeOpen answers .incomplete now
    (true, { (List.finRange kSlots).foldl (fun g i => g.retire answers i true) g with shut := true })

end

def fresh (owner : GpuSpanOwner) : GpuSpanState :=
  { owner := owner }

end GpuSpanState

inductive SpanCall where
  | beginFrame (sequence sourceFrame now : Nat) (owner : GpuSpanOwner)
  | beginApplicationFrame (sequence sourceFrame now : Nat) (owner : GpuSpanOwner)
  | endApplicationSegment (now : Nat) (owner : GpuSpanOwner)
  | resumeApplicationSegment (now : Nat) (owner : GpuSpanOwner)
  | finishApplicationFrame (now : Nat) (owner : GpuSpanOwner)
  | beginEye (eye now : Nat) (owner : GpuSpanOwner)
  | endEye (eye now : Nat) (owner : GpuSpanOwner)
  | finishFrame (now : Nat) (owner : GpuSpanOwner)
  | invalidateFrame (now : Nat) (owner : GpuSpanOwner)
  | poll (now : Nat) (owner : GpuSpanOwner)
  | shutdown (now : Nat) (owner : GpuSpanOwner)
  deriving DecidableEq, Repr

def GpuSpanState.perform (answers : Nat → SpanAnswer) (g : GpuSpanState) :
    SpanCall → GpuSpanState
  | .beginFrame sequence sourceFrame now owner =>
    (g.beginFrame answers sequence sourceFrame now owner).2
  | .beginApplicationFrame sequence sourceFrame now owner =>
    (g.beginApplicationFrame answers sequence sourceFrame now owner).2
  | .endApplicationSegment now owner => (g.endApplicationSegment answers now owner).2
  | .resumeApplicationSegment now owner => (g.resumeApplicationSegment answers now owner).2
  | .finishApplicationFrame now owner => (g.finishApplicationFrame answers now owner).2
  | .beginEye eye now owner => (g.beginEye answers eye now owner).2
  | .endEye eye now owner => (g.endEye answers eye now owner).2
  | .finishFrame now owner => (g.finishFrame answers now owner).2
  | .invalidateFrame now owner => (g.invalidateFrame answers now owner).2
  | .poll now owner => (g.poll answers now owner).2
  | .shutdown now owner => (g.shutdown answers now owner).2

def GpuSpanState.run (answers : Nat → SpanAnswer) (g : GpuSpanState) (calls : List SpanCall) :
    GpuSpanState :=
  calls.foldl (·.perform answers) g

end EdvrPatch.Gpu
