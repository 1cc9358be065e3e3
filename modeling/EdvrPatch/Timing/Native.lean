import Mathlib

/-! The CPU side of the native frame timing, `native_timing.cpp`. Every operation
runs under one lock and is one step here. Contexts are named by their place in the
pool; a completion is kept where the ring would keep the last 256. The device GPU
sample, its reject floor and the counts of the log lines are left out. -/
namespace EdvrPatch.Timing

abbrev Binary64 := UInt64

def finiteNonnegative (value : Binary64) : Bool :=
  value == 0x8000000000000000 || value ≤ 0x41224f8000000000

/-- The arithmetic on doubles: the wall time between two counter readings where it
is sensible, sums, and nanoseconds as milliseconds. -/
structure TimingMath where
  qpcMs : Int → Int → Option Binary64
  addMs : Binary64 → Binary64 → Binary64
  periodMs : Int → Binary64

structure EdvrNativeTimingFrame where
  size : Nat := 0
  version : Nat := 0
  sequence : Nat := 0
  submitMs : Binary64 × Binary64 := (0, 0)
  temporalMs : Binary64 × Binary64 := (0, 0)
  menuMs : Binary64 × Binary64 := (0, 0)
  transferMs : Binary64 × Binary64 := (0, 0)
  composeMs : Binary64 := 0
  inputWidth : Nat × Nat := (0, 0)
  inputHeight : Nat × Nat := (0, 0)
  outputWidth : Nat × Nat := (0, 0)
  outputHeight : Nat × Nat := (0, 0)
  gameFov : List UInt32 × List UInt32 := ([0, 0, 0, 0], [0, 0, 0, 0])
  treatments : Nat × Nat := (0, 0)
  featureEpoch : Nat := 0
  baseDisplayHz : UInt32 := 0
  callerWorkMs : Binary64 := 0
  callerWorkValid : Nat := 0
  deriving DecidableEq

namespace EdvrNativeTimingFrame

/-- The size a frame of this version has, zero for an unknown version. -/
def frameSize (frame : EdvrNativeTimingFrame) : Nat :=
  match frame.version with
  | 5 => 192
  | 4 => 176
  | 3 => 168
  | _ => 0

def fieldsValid (frame : EdvrNativeTimingFrame) : Bool :=
  finiteNonnegative frame.composeMs &&
    [frame.submitMs, frame.temporalMs, frame.menuMs, frame.transferMs].all fun pair =>
      finiteNonnegative pair.1 && finiteNonnegative pair.2

def copied (frame : EdvrNativeTimingFrame) : EdvrNativeTimingFrame :=
  match frame.version with
  | 5 => frame
  | 4 => { frame with callerWorkMs := 0, callerWorkValid := 0 }
  | _ => { frame with baseDisplayHz := 0, callerWorkMs := 0, callerWorkValid := 0 }

end EdvrNativeTimingFrame

structure NativeTimingSnapshot where
  active : Bool := false
  haveCpu : Bool := false
  invalid : Bool := false
  generation : Nat := 0
  firstSequence : Nat := 0
  sequence : Nat := 0
  capturedAtMs : Nat := 0
  waitMs : Binary64 := 0
  predictedPeriodMs : Binary64 := 0
  applicationMs : Binary64 := 0
  applicationValid : Bool := false
  cpu : EdvrNativeTimingFrame := {}
  deriving DecidableEq

def kCapacity : Nat := 16
def kApplicationSegments : Nat := 4
def kMaxPeriodNs : Int := 10000000000

structure Context where
  active : Bool := false
  device : Nat := 0
  producer : Nat := 0
  generation : Nat := 0
  firstSequence : Nat := 0
  waitSequence : Nat := 0
  waitQpc : Int := 0
  waitOutstanding : Bool := false
  waitValid : Bool := false
  published : Bool := false
  pendingWaitMs : Binary64 := 0
  pendingPeriodMs : Binary64 := 0
  attempted : Nat := 0
  opened : Nat := 0
  ended : Nat := 0
  applicationQpc : Int := 0
  applicationMs : Binary64 := 0
  applicationSegments : Nat := 0
  applicationOpen : Bool := false
  applicationValid : Bool := true
  completionQueued : Bool := false

def Context.queued (c : Context) (sequence : Nat) : Context :=
  { c with completionQueued := c.completionQueued || sequence != 0 }

/-- `used` is the length of the pool. `nextSequence` is the counter of the frame
protocol, which other callers of it advance too. -/
structure NativeTiming where
  pool : List Context := []
  current : Option Nat := none
  snapshot : NativeTimingSnapshot := {}
  completions : List NativeTimingSnapshot := []
  nextSequence : Nat := 0

/-- `GpuFrameEvent::WaitBegin`: the counter it leaves, and its answer. -/
def gpuWaitBegin (nextSequence : Nat) : Nat × Nat :=
  let seq := (nextSequence + 1) % 2 ^ 64
  (seq, if seq = 0 ∨ (2 ^ 64 - 1) / 2 < seq then 0 else seq)

inductive HResult where
  | ok | invalidArg | pending | no
  deriving DecidableEq, Repr

structure EdvrNativeTimingRequest where
  headed : Bool := true
  device : Nat
  generation : Nat

namespace NativeTiming

variable (math : TimingMath)

def live (t : NativeTiming) (p : Nat) : Option Context :=
  t.pool[p]?.filter fun c => c.active && t.current == some p

def put (t : NativeTiming) (p : Nat) (c : Context) : NativeTiming :=
  { t with pool := t.pool.set p c }

def clearCpu (s : NativeTimingSnapshot) : NativeTimingSnapshot :=
  { s with
    haveCpu := false, invalid := false, cpu := {}, capturedAtMs := 0
    waitMs := 0, predictedPeriodMs := 0, sequence := 0, applicationMs := 0
    applicationValid := false }

def completion (s : NativeTimingSnapshot) (c : Context) (sequence : Nat) (invalid : Bool)
    (now : Nat) : NativeTimingSnapshot :=
  let value := { s with
    active := true, generation := c.generation, sequence := sequence, capturedAtMs := now }
  if invalid then
    { value with
      haveCpu := false, invalid := true, cpu := {}, waitMs := 0
      predictedPeriodMs := 0, applicationMs := 0, applicationValid := false }
  else value

def queueCompletion (t : NativeTiming) (c : Context) (sequence : Nat) (invalid : Bool)
    (now : Nat) : NativeTiming :=
  if sequence = 0 ∨ c.completionQueued then t
  else { t with completions := t.completions ++ [completion t.snapshot c sequence invalid now] }

def acquire (t : NativeTiming) (table : Bool) (request : Option EdvrNativeTimingRequest)
    (thread : Nat) : NativeTiming × HResult :=
  match request with
  | none => (t, .invalidArg)
  | some request =>
    if ¬table ∨ ¬request.headed ∨ request.device = 0 ∨ request.generation = 0 then (t, .invalidArg)
    else if t.current.isSome ∨ t.pool.length = kCapacity then (t, .pending)
    else
      ({ t with
        pool := t.pool ++ [{
          active := true, device := request.device, producer := thread
          generation := request.generation }]
        current := some t.pool.length
        snapshot := { active := true, generation := request.generation } }, .ok)

def waitBegin (t : NativeTiming) (p : Nat) (qpc : Int) (now : Nat) : NativeTiming × Nat :=
  match t.live p with
  | none => (t, 0)
  | some c =>
    -- An unfinished prior wait cannot leave its CPU sample fresh.
    let t := if c.waitSequence ≠ 0 ∧ ¬c.published then
        let queued := t.queueCompletion c c.waitSequence true now
        { queued with snapshot := clearCpu queued.snapshot }
      else t
    let (nextSequence, sequence) := gpuWaitBegin t.nextSequence
    let snapshot :=
      if sequence = 0 then { clearCpu t.snapshot with invalid := true }
      else if c.firstSequence = 0 then { t.snapshot with firstSequence := sequence }
      else t.snapshot
    let c := { c with
      firstSequence := if c.firstSequence = 0 then sequence else c.firstSequence
      waitSequence := sequence
      waitQpc := if sequence = 0 then 0 else qpc
      waitOutstanding := sequence != 0
      waitValid := false, published := false, completionQueued := false
      attempted := 0, opened := 0, ended := 0
      applicationQpc := 0, applicationMs := 0, applicationSegments := 0
      applicationOpen := false, applicationValid := true }
    ({ t.put p c with nextSequence := nextSequence, snapshot := snapshot }, sequence)

def waitEnd (t : NativeTiming) (p sequence valid : Nat) (periodNs qpc : Int) (armed : Bool)
    (now : Nat) : NativeTiming × HResult :=
  match t.live p with
  | none => (t, .invalidArg)
  | some c =>
    if ¬c.waitOutstanding ∨ sequence ≠ c.waitSequence then (t, .invalidArg)
    else
      let elapsed := if valid = 1 ∧ 0 ≤ periodNs ∧ periodNs ≤ kMaxPeriodNs then
        math.qpcMs c.waitQpc qpc else none
      match elapsed, armed with
      | some elapsedMs, true =>
        (t.put p { c with
          waitOutstanding := false, waitValid := true, published := false
          pendingWaitMs := elapsedMs, pendingPeriodMs := math.periodMs periodNs }, .ok)
      | _, _ =>
        let queued := t.queueCompletion c sequence true now
        ({ queued.put p
            { c.queued sequence with waitOutstanding := false, waitValid := false, published := false } with
          snapshot := { clearCpu queued.snapshot with invalid := true } }, .invalidArg)

def applicationMark (c : Context) (starts accepted : Nat) (texture : Bool) (thread : Nat)
    (qpc : Int) : Context × Bool :=
  if 1 < starts ∨ 1 < accepted ∨ texture ∨ ¬c.applicationValid ∨ thread ≠ c.producer then (c, false)
  else if starts = 1 then
    if c.applicationOpen then (c, false)
    else if qpc = 0 then ({ c with applicationQpc := 0 }, false)
    else ({ c with applicationQpc := qpc, applicationOpen := true }, true)
  else if ¬c.applicationOpen then (c, false)
  else
    match math.qpcMs c.applicationQpc qpc with
    | none => ({ c with applicationValid := false, applicationOpen := false }, false)
    | some elapsed =>
      ({ c with
        applicationMs := math.addMs c.applicationMs elapsed
        applicationSegments := c.applicationSegments + 1
        applicationQpc := 0, applicationOpen := false }, true)

/-- An eye's submission bracket. `answer` is the frame protocol's. -/
def eyeMark (c : Context) (eye starts : Nat) (answer : Bool) : Context × Bool :=
  let bit := 2 ^ eye
  if starts = 1 then
    if c.attempted &&& bit ≠ 0 ∨ c.opened ≠ 0 then (c, false)
    else
      let c := { c with attempted := c.attempted ||| bit }
      (if answer then { c with opened := c.opened ||| bit } else c, answer)
  else if c.opened &&& bit = 0 ∨ c.ended &&& bit ≠ 0 then (c, false)
  else ({ c with opened := c.opened ^^^ bit, ended := c.ended ||| bit }, answer)

/-- `texture` says whether its device is the context's own; `answer` is the frame
protocol's, where it is asked. -/
def gpuEye (t : NativeTiming) (p sequence eye starts accepted : Nat) (texture : Option Bool)
    (thread : Nat) (qpc : Int) (answer : Bool) : NativeTiming × Bool :=
  match t.live p with
  | none => (t, false)
  | some c =>
    if sequence = 0 ∨ ¬c.waitValid ∨ c.published ∨ sequence ≠ c.waitSequence then (t, false)
    else if eye = 2 then
      let (c, taken) := applicationMark math c starts accepted texture.isSome thread qpc
      (t.put p c, taken)
    else if 3 ≤ eye ∧ eye ≤ 6 then
      if thread ≠ c.producer then (t, false)
      else if 5 ≤ eye then
        (t, starts == 0 && accepted == 1 && texture.isSome && answer)
      else
        (t, starts == (if eye = 3 then 1 else 0) && accepted == 1 && texture.isNone && answer)
    else if thread ≠ c.producer ∨ 1 < eye ∨ 1 < starts ∨ 1 < accepted ∨ texture ≠ some true then
      (t, false)
    else
      let (c, taken) := eyeMark c eye starts answer
      (t.put p c, taken)

def publishCpu (t : NativeTiming) (p : Nat) (frame : Option EdvrNativeTimingFrame) (now : Nat) :
    NativeTiming × HResult :=
  match t.live p, frame with
  | some c, some frame =>
    if frame.frameSize = 0 ∨ frame.size ≠ frame.frameSize ∨ ¬c.waitValid ∨ c.published ∨
        frame.sequence ≠ c.waitSequence then (t, .invalidArg)
    else if ¬frame.fieldsValid then
      let queued := t.queueCompletion c frame.sequence true now
      ({ queued.put p { c.queued frame.sequence with waitValid := false } with
        snapshot := { clearCpu queued.snapshot with invalid := true } }, .invalidArg)
    else
      let shown := { t with
        snapshot := { t.snapshot with
          cpu := frame.copied, haveCpu := true, invalid := false, active := true
          generation := c.generation, sequence := frame.sequence, capturedAtMs := now
          waitMs := c.pendingWaitMs, predictedPeriodMs := c.pendingPeriodMs
          applicationMs := c.applicationMs
          applicationValid := c.applicationValid && !c.applicationOpen &&
            c.applicationSegments == kApplicationSegments } }
      ((shown.queueCompletion c frame.sequence false now).put p
        { c.queued frame.sequence with published := true }, .ok)
  | _, _ => (t, .invalidArg)

def invalidate (t : NativeTiming) (p now : Nat) : NativeTiming × HResult :=
  match t.live p with
  | none => (t, .invalidArg)
  | some c =>
    let queued := if c.published then t else t.queueCompletion c c.waitSequence true now
    let c := if c.published then c else c.queued c.waitSequence
    ({ queued.put p { c with
        waitOutstanding := false, waitValid := false, published := false
        applicationQpc := 0, applicationOpen := false, applicationValid := false } with
      snapshot := { clearCpu queued.snapshot with
        active := true, generation := c.generation, invalid := true } }, .ok)

def close (t : NativeTiming) (p now : Nat) : NativeTiming × HResult :=
  match t.pool[p]? with
  | none => (t, .invalidArg)
  | some c =>
    if ¬c.active then (t, .no)
    else
      let queued := if c.published then t else t.queueCompletion c c.waitSequence true now
      let c := if c.published then c else c.queued c.waitSequence
      ({ queued.put p { c with
          active := false, device := 0, waitOutstanding := false, waitValid := false
          published := false } with
        current := if t.current = some p then none else t.current
        snapshot := {} }, .ok)

end NativeTiming

inductive TimingCall where
  | acquire (table : Bool) (request : Option EdvrNativeTimingRequest) (thread : Nat)
  | waitBegin (p : Nat) (qpc : Int) (now : Nat)
  | waitEnd (p sequence valid : Nat) (periodNs qpc : Int) (armed : Bool) (now : Nat)
  | gpuEye (p sequence eye starts accepted : Nat) (texture : Option Bool) (thread : Nat) (qpc : Int)
      (answer : Bool)
  | publishCpu (p : Nat) (frame : Option EdvrNativeTimingFrame) (now : Nat)
  | invalidate (p now : Nat)
  | close (p now : Nat)
  /-- Another caller of the frame protocol begins a wait. -/
  | waitElsewhere

inductive TimingReply where
  | sequence (n : Nat)
  | code (result : HResult)
  | taken (yes : Bool)
  deriving DecidableEq, Repr

namespace NativeTiming

variable (math : TimingMath)

def step (t : NativeTiming) : TimingCall → NativeTiming × TimingReply
  | .acquire table request thread => (t.acquire table request thread).map id .code
  | .waitBegin p qpc now => (t.waitBegin p qpc now).map id .sequence
  | .waitEnd p sequence valid periodNs qpc armed now =>
    (t.waitEnd math p sequence valid periodNs qpc armed now).map id .code
  | .gpuEye p sequence eye starts accepted texture thread qpc answer =>
    (t.gpuEye math p sequence eye starts accepted texture thread qpc answer).map id .taken
  | .publishCpu p frame now => (t.publishCpu p frame now).map id .code
  | .invalidate p now => (t.invalidate p now).map id .code
  | .close p now => (t.close p now).map id .code
  | .waitElsewhere =>
    ({ t with nextSequence := (gpuWaitBegin t.nextSequence).1 },
      .sequence (gpuWaitBegin t.nextSequence).2)

end NativeTiming

/-- The state after a sequence of calls, and what each of them returned. -/
def timingAfter (math : TimingMath) : List TimingCall → NativeTiming × List (TimingCall × TimingReply) :=
  List.foldl (fun run call =>
    let (t, reply) := run.1.step math call
    (t, run.2 ++ [(call, reply)])) ({}, [])

end EdvrPatch.Timing
