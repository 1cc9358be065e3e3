import EdvrPatch.Gpu.SpanState

/-! The four spans of `device_gpu_timing.cpp`. Frames are begun and accepted on one side, phases are
stamped on the other, and what is given up is retired at the next boundary. The driver and the clock
are free: their answer to the `n`-th question is `answers n`. All is recorded. -/
namespace EdvrPatch.Gpu

inductive EdvrNativeGpuStatus where
  | pending | valid | disabled | incomplete | queryFailure | stale
  deriving DecidableEq, Repr

structure EdvrNativeDeviceGpuSample where
  sequence : Nat
  completedAtMs : Nat
  status : EdvrNativeGpuStatus
  transferMs : UInt64 × UInt64 := (0, 0)
  composeMs : UInt64 × UInt64 := (0, 0)
  deriving DecidableEq, Repr

inductive DeviceCall where
  | create (slot : Fin kSlots) (ok : Bool)
  | begins (slot : Fin kSlots) (ok : Bool)
  | timestamp (slot : Fin kSlots) (index : Nat) (ok : Bool)
  | ends (slot : Fin kSlots) (ok : Bool)
  | poll (slot : Fin kSlots) (raw : GpuSpanRawSample)
  | destroy (slot : Fin kSlots)

inductive DeviceEvent where
  | driver (call : DeviceCall)
  | frame (sequence : Nat)
  | accepted (sequence : Nat)
  | invalidated
  | published (sample : EdvrNativeDeviceGpuSample)

structure DeviceAnswer where
  ok : Bool := true
  poll : GpuSpanPoll := .pending
  raw : GpuSpanRawSample := {}
  now : Nat := 0

/-- The span between two stamps at a frequency, where it is finite and at most ten
minutes. -/
abbrev SpanMs := (ticks frequency : Nat) → Option UInt64

/-- `order` lists the phases as they were ended; the phase mask and count of the source
are its members and its length. -/
structure DeviceSlot where
  sequence : Nat := 0
  completedAtMs : Nat := 0
  order : List Nat := []
  openPhase : Option Nat := none
  allocated : Bool := false
  queryOpen : Bool := false
  pending : Bool := false
  accepted : Bool := false
  deriving DecidableEq, Repr

structure DeviceGpuTiming where
  slots : Fin kSlots → DeviceSlot := fun _ => {}
  active : Option (Fin kSlots) := none
  sequence : Nat := 0
  lastSequence : Nat := 0
  lastPublishedSequence : Nat := 0
  statusAtMs : Nat := 0
  enabled : Bool := false
  stopped : Bool := false
  frameStarted : Bool := false
  frameAccepted : Bool := false
  statusPending : Bool := false
  frameStatus : EdvrNativeGpuStatus := .pending
  retireMask : Fin kSlots → Bool := fun _ => false
  asked : Nat := 0
  log : List DeviceEvent := []

namespace DeviceGpuTiming

variable (answers : Nat → DeviceAnswer) (spanMs : SpanMs)

def setSlot (g : DeviceGpuTiming) (i : Fin kSlots) (s : DeviceSlot) : DeviceGpuTiming :=
  { g with slots := Function.update g.slots i s }

def issue (g : DeviceGpuTiming) (call : Bool → DeviceCall) : Bool × DeviceGpuTiming :=
  ((answers g.asked).ok,
    { g with asked := g.asked + 1, log := g.log ++ [.driver (call (answers g.asked).ok)] })

def destroy (g : DeviceGpuTiming) (i : Fin kSlots) : DeviceGpuTiming :=
  (g.issue answers fun _ => .destroy i).2

def nowMs (g : DeviceGpuTiming) : Nat × DeviceGpuTiming :=
  ((answers g.asked).now, { g with asked := g.asked + 1 })

def retireFrame (g : DeviceGpuTiming) (all : Bool) : DeviceGpuTiming :=
  { g with
    retireMask := fun i => g.retireMask i || (g.slots i).queryOpen ||
      ((g.slots i).pending && (all || !(g.slots i).accepted))
    active := none }

def retireSlot (g : DeviceGpuTiming) (i : Fin kSlots) : DeviceGpuTiming :=
  if g.retireMask i then
    let g := if (g.slots i).queryOpen then
        match g.issue answers (.ends i) with
        | (ok, g) => { g with stopped := g.stopped || !ok }
      else g
    (g.destroy answers i).setSlot i {}
  else g

def retire (g : DeviceGpuTiming) : DeviceGpuTiming :=
  { (List.finRange kSlots).foldl (fun g i => g.retireSlot answers i) g with
    retireMask := fun _ => false }

def failCurrent (g : DeviceGpuTiming) (status : EdvrNativeGpuStatus) : DeviceGpuTiming :=
  let g := match g.active with
    | none => g
    | some i =>
      { g with retireMask := Function.update g.retireMask i true, active := none }.retire answers
  match g.nowMs answers with
  | (now, g) =>
    { g with
      frameStarted := true
      frameStatus := if g.stopped then .queryFailure else status
      statusAtMs := now, statusPending := true }

def beginFrame (g : DeviceGpuTiming) (sequence : Nat) (enabled : Bool) : DeviceGpuTiming :=
  if sequence = 0 ∨ sequence ≤ g.lastSequence then g
  else
    match (g.retireFrame !enabled).nowMs answers with
    | (now, g) =>
      let status := if ¬enabled then .disabled else if g.stopped then .queryFailure else .pending
      { g with
        sequence := sequence, lastSequence := sequence, enabled := enabled
        frameStarted := false, frameAccepted := false
        frameStatus := status, statusPending := status != EdvrNativeGpuStatus.pending, statusAtMs := now
        log := g.log ++ [.frame sequence] }

def incomplete (g : DeviceGpuTiming) : DeviceGpuTiming :=
  match g.nowMs answers with
  | (now, g) => { g with frameStatus := .incomplete, statusPending := true, statusAtMs := now }

def acceptFrame (g : DeviceGpuTiming) (sequence : Nat) : DeviceGpuTiming :=
  if sequence = 0 ∨ sequence ≠ g.sequence ∨ g.frameAccepted then g
  else
    let g := { g with frameAccepted := true, log := g.log ++ [DeviceEvent.accepted sequence] }
    -- The closure of an open query is left to a boundary of the GPU work.
    let g := if g.active.isSome then (g.retireFrame false).incomplete answers else g
    match (List.finRange kSlots).find? fun i => (g.slots i).pending && (g.slots i).sequence == sequence with
    | some i => g.setSlot i { g.slots i with accepted := true }
    | none => if g.statusPending then g else g.incomplete answers

def invalidate (g : DeviceGpuTiming) : DeviceGpuTiming :=
  { g.retireFrame true with
    sequence := 0, statusPending := false, frameAccepted := false
    log := g.log ++ [.invalidated] }

def openScope (g : DeviceGpuTiming) (i : Fin kSlots) : Bool × DeviceGpuTiming :=
  match (if (g.slots i).allocated then (true, g) else g.issue answers (.create i)) with
  | (false, g) => (false, g.failCurrent answers .queryFailure)
  | (true, g) =>
    let g := g.setSlot i { g.slots i with allocated := true }
    match g.issue answers (.begins i) with
    | (false, g) => (false, ((g.destroy answers i).setSlot i {}).failCurrent answers .queryFailure)
    | (true, g) =>
      (true,
        { g.setSlot i { g.slots i with sequence := g.sequence, queryOpen := true } with
          active := some i })

def stampBegin (g : DeviceGpuTiming) (i : Fin kSlots) (phase : Nat) : DeviceGpuTiming :=
  let s := g.slots i
  if s.sequence ≠ g.sequence ∨ s.openPhase.isSome ∨ phase ∈ s.order ∨
      (2 ≤ phase ∧ ¬(0 ∈ s.order ∧ 1 ∈ s.order)) then g.failCurrent answers .incomplete
  else
    match g.issue answers (.timestamp i (phase * 2)) with
    | (false, g) => g.failCurrent answers .queryFailure
    | (true, g) => g.setSlot i { g.slots i with openPhase := some phase }

def beginGpuWork (g : DeviceGpuTiming) (phase : Nat) (owner : Bool) : DeviceGpuTiming :=
  if ¬owner then g
  else
    let g := g.retire answers
    if g.sequence = 0 ∨ g.frameAccepted ∨ ¬g.enabled then g
    else if g.stopped then g.failCurrent answers .queryFailure
    else if 3 < phase then g.failCurrent answers .incomplete
    else
      match g.active with
      | some i => g.stampBegin answers i phase
      | none =>
        if g.frameStarted then
          -- No second scope in one frame, not for duplicate work after its closure either.
          if g.statusPending then g else (g.retireFrame false).failCurrent answers .incomplete
        else
          let g := { g with frameStarted := true }
          if 1 < phase then g.failCurrent answers .incomplete
          else
            match (List.finRange kSlots).find? fun i => !((g.slots i).pending || g.retireMask i) with
            | none => g.failCurrent answers .incomplete
            | some i =>
              match g.openScope answers i with
              | (false, g) => g
              | (true, g) => g.stampBegin answers i phase

def closeScope (g : DeviceGpuTiming) (i : Fin kSlots) : DeviceGpuTiming :=
  match g.issue answers (.ends i) with
  | (ok, g) =>
    let g := g.setSlot i { g.slots i with queryOpen := false }
    if ¬ok then { g with stopped := true }.failCurrent answers .queryFailure
    else
      match g.nowMs answers with
      | (now, g) =>
        { g.setSlot i { g.slots i with pending := true, completedAtMs := now } with active := none }

def endGpuWork (g : DeviceGpuTiming) (phase : Nat) (owner : Bool) : DeviceGpuTiming :=
  if ¬owner ∨ ¬g.enabled ∨ g.sequence = 0 ∨ g.frameAccepted then g
  else
    match g.active with
    | none => g
    | some i =>
      if 3 < phase ∨ (g.slots i).openPhase ≠ some phase then g.failCurrent answers .incomplete
      else
        match g.issue answers (.timestamp i (phase * 2 + 1)) with
        | (false, g) => g.failCurrent answers .queryFailure
        | (true, g) =>
          let s := g.slots i
          let g := g.setSlot i { s with order := s.order ++ [phase], openPhase := none }
          if (List.range 4).all (· ∈ (g.slots i).order) then g.closeScope answers i else g

def oldest (g : DeviceGpuTiming) : Option (Fin kSlots) :=
  (List.finRange kSlots).foldl (fun best i =>
    if (g.slots i).pending && (g.slots i).accepted then
      match best with
      | none => some i
      | some b => if (g.slots i).sequence < (g.slots b).sequence then some i else best
    else best) none

/-- The spans of the phases in the order they were taken, with the stamp before. -/
def spans (raw : GpuSpanRawSample) : List Nat → Nat → (Nat → UInt64) → Option (Nat → UInt64)
  | [], _, times => some times
  | p :: rest, previous, times =>
    let start := raw.ticks (p * 2)
    let stop := raw.ticks (p * 2 + 1)
    if stop < start ∨ start < previous then none
    else
      match spanMs (stop - start) raw.frequency with
      | none => none
      | some ms => spans raw rest stop (Function.update times p ms)

def kDeviceMaxAgeMs : Nat := 2000

/-- What a slot is reported as, and whether its objects can be used again; nothing
while the driver is not done with it. -/
def readSlot (g : DeviceGpuTiming) (i : Fin kSlots) :
    Option (EdvrNativeDeviceGpuSample × Bool) × DeviceGpuTiming :=
  let s := g.slots i
  let sample (status : EdvrNativeGpuStatus) : EdvrNativeDeviceGpuSample :=
    { sequence := s.sequence, completedAtMs := s.completedAtMs, status := status }
  match g.nowMs answers with
  | (now, g) =>
    if now < s.completedAtMs ∨ kDeviceMaxAgeMs < now - s.completedAtMs then
      (some (sample .stale, false), g)
    else if g.stopped then (some (sample .queryFailure, false), g)
    else
      let raw := (answers g.asked).raw
      let result := (answers g.asked).poll
      match g.issue answers fun _ => .poll i raw with
      | (_, g) =>
        match result with
        | .pending => (none, g)
        | .failed => (some (sample .queryFailure, false), g)
        | .ready =>
          if ¬raw.timestampsReady ∨ raw.disjoint ∨ raw.frequency = 0 then
            (some (sample .queryFailure, true), g)
          else
            match spans spanMs raw s.order 0 fun _ => 0 with
            | none => (some (sample .queryFailure, true), g)
            | some times =>
              (some ({ sample .valid with
                transferMs := (times 0, times 1), composeMs := (times 2, times 3) }, true), g)

/-- The accepted slots, oldest first. Each round clears one, so `kSlots` rounds are
all there can be. -/
def pollSlots : Nat → DeviceGpuTiming → Nat → Nat × DeviceGpuTiming
  | 0, g, capacity => (capacity, g)
  | fuel + 1, g, capacity =>
    if capacity = 0 then (0, g)
    else
      match g.oldest with
      | none => (capacity, g)
      | some i =>
        if (g.slots i).sequence ≤ g.lastPublishedSequence then
          pollSlots fuel ((g.destroy answers i).setSlot i {}) capacity
        else
          match g.readSlot answers spanMs i with
          | (none, g) => (capacity, g)
          | (some (sample, reusable), g) =>
            let g := { g with
              lastPublishedSequence := sample.sequence, log := g.log ++ [DeviceEvent.published sample] }
            let g := if reusable then g else g.destroy answers i
            pollSlots fuel (g.setSlot i { allocated := reusable }) (capacity - 1)

def poll (g : DeviceGpuTiming) (capacity : Nat) (owner : Bool) : DeviceGpuTiming :=
  if ¬owner ∨ capacity = 0 then g
  else
    match (g.retire answers).pollSlots answers spanMs kSlots capacity with
    | (left, g) =>
      if left ≠ 0 ∧ g.statusPending ∧ g.frameAccepted ∧ g.lastPublishedSequence < g.sequence then
        -- A newer failure supersedes older work that is still pending.
        let g := { g with retireMask := fun i => g.retireMask i ||
          ((g.slots i).pending && (g.slots i).sequence < g.sequence) }.retire answers
        { g with
          log := g.log ++ [DeviceEvent.published
            { sequence := g.sequence, completedAtMs := g.statusAtMs, status := g.frameStatus }]
          lastPublishedSequence := g.sequence, statusPending := false }
      else g

end DeviceGpuTiming

inductive DeviceTimingCall where
  | beginFrame (sequence : Nat) (enabled : Bool)
  | acceptFrame (sequence : Nat)
  | invalidate
  | beginGpuWork (phase : Nat) (owner : Bool)
  | endGpuWork (phase : Nat) (owner : Bool)
  | poll (capacity : Nat) (owner : Bool)

def DeviceGpuTiming.step (answers : Nat → DeviceAnswer) (spanMs : SpanMs) (g : DeviceGpuTiming) :
    DeviceTimingCall → DeviceGpuTiming
  | .beginFrame sequence enabled => g.beginFrame answers sequence enabled
  | .acceptFrame sequence => g.acceptFrame answers sequence
  | .invalidate => g.invalidate
  | .beginGpuWork phase owner => g.beginGpuWork answers phase owner
  | .endGpuWork phase owner => g.endGpuWork answers phase owner
  | .poll capacity owner => g.poll answers spanMs capacity owner

end EdvrPatch.Gpu
