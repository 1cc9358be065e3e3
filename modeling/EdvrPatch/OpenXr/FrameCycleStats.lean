import EdvrPatch.Lib.Traced

/-! The account of where the time of a frame goes between the game's thread and the
owner's (`frame_cycle_stats.h`). Ticks are microseconds as the callers read them, in any
order; what the source keeps in milliseconds as doubles are exact rationals here. -/
namespace EdvrPatch.OpenXr

open Lib

namespace FrameCycle

inductive Missing where
  | badClock
  | reentrant
  | wrongThread
  | badSequence
  | partialStereo
  | duplicateEye
  | directOwner
  | shapeChange
  | overflow
  deriving DecidableEq, Repr

inductive PostUnavailable where
  | postAvailable
  | providerMissing
  | badProviderVersion
  | badProviderSize
  | badProviderGeneration
  | notYetObservable
  | lostPresentHistory
  | partialPresent
  | wrongPresentThread
  | failedPresent
  | testPresent
  | malformedPresent
  deriving DecidableEq, Repr

structure Shape where
  width : UInt32 × UInt32 := (0, 0)
  height : UInt32 × UInt32 := (0, 0)
  outputWidth : UInt32 × UInt32 := (0, 0)
  outputHeight : UInt32 × UInt32 := (0, 0)
  pacing : UInt32 := 0
  shouldRender : UInt32 := 0
  sceneReady : UInt32 := 0
  generation : UInt64 := 0
  featureEpoch : UInt64 := 0
  deriving DecidableEq, Repr

structure PresentSpan where
  beginUs : UInt64
  realBeginUs : UInt64
  realEndUs : UInt64
  bodyEndUs : UInt64
  endUs : UInt64
  thread : UInt32
  syncInterval : UInt32
  flags : UInt32
  result : Int32
  deriving DecidableEq, Repr

def presentTraceCapacity : Nat := 16

structure PresentTrace where
  size : UInt32
  version : UInt32
  count : UInt32
  overflow : UInt32
  generation : UInt64
  totalObserved : UInt64
  spans : Vector PresentSpan presentTraceCapacity

structure Handoff where
  beginUs : UInt64
  endUs : UInt64
  deriving DecidableEq, Repr

structure Wait where
  isOpen : Bool := false
  token : UInt64 := 0
  beginUs : UInt64 := 0
  ownerBegin : UInt64 := 0
  ownerEnd : UInt64 := 0
  thread : UInt32 := 0

structure PostParts where
  presentCount : Nat := 0
  rawPresent : ℚ := 0
  edvrBeforePresent : ℚ := 0
  edvrAfterPresent : ℚ := 0
  edvrPresent : ℚ := 0
  trailingCallback : ℚ := 0
  outsidePresent : ℚ := 0
  postResidual : ℚ := 0
  beforePresent : ℚ := 0
  afterPresent : ℚ := 0

/-- The cycle in progress. What the source keeps for the two eyes is indexed by the order
of their submissions; `seen` is the mask of the eyes themselves. -/
structure Current where
  active : Bool := false
  submitOpen : Bool := false
  sequence : UInt64 := 0
  waitReturn : UInt64 := 0
  waitRound : UInt64 := 0
  waitOwner : UInt64 := 0
  beforeFirst : UInt64 := 0
  between : UInt64 := 0
  afterSecond : UInt64 := 0
  submitToken : UInt64 := 0
  submitBegin : UInt64 := 0
  ownerBegin : UInt64 := 0
  ownerEnd : UInt64 := 0
  submitReturn : Nat → UInt64 := fun _ => 0
  submitRound : Nat → UInt64 := fun _ => 0
  owner : Nat → UInt64 := fun _ => 0
  atMs : UInt64 := 0
  afterSecondReady : Bool := false
  park : Nat → ℚ := fun _ => 0
  post : PostParts := {}
  syncNonzeroPresent : Nat := 0
  presentBegin : UInt64 := 0
  presentEnd : UInt64 := 0
  callerThread : UInt32 := 0
  waitThread : UInt32 := 0
  submitThread : UInt32 := 0
  order : Nat → Nat := fun _ => 0
  seen : Nat → Bool := fun _ => false
  eyes : Nat := 0
  postUnavailable : PostUnavailable := .providerMissing
  postValid : Bool := false
  singlePresent : Bool := false
  handoffs : List Handoff := []
  handoffInvalid : UInt64 := 0
  handoffOverflow : UInt64 := 0
  shape : Shape := {}

structure Sample where
  sequence : UInt64
  cycle : ℚ
  beforeFirst : ℚ
  firstSubmit : ℚ
  betweenEyes : ℚ
  secondSubmit : ℚ
  afterSecond : ℚ
  nextWait : ℚ
  residual : ℚ
  waitOwner : ℚ
  submitOwner : ℚ × ℚ
  renderPark : ℚ × ℚ
  frameEndOwnerBody : ℚ
  nextWaitQueueDelay : ℚ
  post : PostParts
  handoffCount : Nat
  handoffNested : ℚ
  syncNonzeroPresent : Nat
  eyeOrder : Nat × Nat
  callerThread : UInt32
  waitThread : UInt32
  postUnavailable : PostUnavailable
  postValid : Bool
  singlePresent : Bool
  handoffValid : Bool

/-- The last whole cycle, for the reader that watches for a long one. -/
structure Completed where
  sequence : UInt64
  generation : UInt64
  featureEpoch : UInt64
  waitReturnUs : UInt64
  secondSubmitReturnUs : UInt64
  nextWaitEntryUs : UInt64
  nextWaitReturnUs : UInt64
  presentBeginUs : UInt64
  presentEndUs : UInt64
  callerThread : UInt32
  nextWaitThread : UInt32
  sceneReady : UInt32
  postUnavailable : PostUnavailable
  postValid : Bool
  singlePresent : Bool
  cycleMs : ℚ
  beforeFirstMs : ℚ
  firstSubmitMs : ℚ
  betweenEyesMs : ℚ
  secondSubmitMs : ℚ
  afterSecondMs : ℚ
  nextWaitMs : ℚ
  waitOwnerMs : ℚ
  submitOwnerMs : ℚ × ℚ
  renderParkMs : ℚ × ℚ

structure Dist where
  mean : ℚ
  p50 : ℚ
  p95 : ℚ
  p99 : ℚ
  max : ℚ

def percentile (sorted : List ℚ) (x : Nat) : ℚ :=
  sorted.getD ((sorted.length * x + 99) / 100 - 1) 0

def dist (values : List ℚ) : Dist :=
  let sorted := values.mergeSort (fun a b => decide (a ≤ b))
  { mean := if values = [] then 0 else values.sum / values.length
    p50 := percentile sorted 50
    p95 := percentile sorted 95
    p99 := percentile sorted 99
    max := sorted.getD (sorted.length - 1) 0 }

structure Report where
  window : UInt64
  firstSequence : UInt64
  lastSequence : UInt64
  elapsedMs : UInt64
  admitted : UInt64
  valid : Nat
  shape : Shape
  missing : Missing → UInt64
  cycle : Dist
  beforeFirst : Dist
  firstSubmit : Dist
  betweenEyes : Dist
  secondSubmit : Dist
  afterSecond : Dist
  nextWait : Dist
  residual : Dist
  waitOwner : Dist
  submitOwner : Dist × Dist
  renderPark : Dist × Dist
  frameEndOwnerBody : Dist
  nextWaitQueueDelay : Dist
  callerThread : UInt32
  waitThread : UInt32
  threadConsistent : Bool
  postValid : Nat
  zeroPresentValid : Nat
  singlePresentValid : Nat
  multiplePresentValid : Nat
  handoffValid : Nat
  firstPostSequence : UInt64
  syncNonzeroPresent : Nat
  postUnavailable : PostUnavailable → Nat
  handoffMissing : UInt64
  handoffInvalid : UInt64
  handoffOverflow : UInt64
  presentCount : Dist
  rawPresent : Dist
  edvrBeforePresent : Dist
  edvrAfterPresent : Dist
  edvrPresent : Dist
  trailingCallback : Dist
  outsidePresent : Dist
  postResidual : Dist
  postGap : Dist
  beforePresent : Dist
  afterPresent : Dist
  handoffCount : Dist
  handoffNested : Dist

def capacity : Nat := 4096

def handoffCapacity : Nat := 16

end FrameCycle

open FrameCycle

structure FrameCycleStats where
  enabled : Bool := false
  everComplete : Bool := false
  report : Option Report := none
  completed : Option Completed := none
  wait : Wait := {}
  current : Current := {}
  callerWorkMs : ℚ := 0
  callerWorkMeasured : Bool := false
  callerWorkFor : UInt64 := 0
  pendingFrameEndOwnerBegin : UInt64 := 0
  pendingFrameEndOwnerMs : ℚ := 0
  samples : List Sample := []
  missing : Missing → UInt64 := fun _ => 0
  attempted : UInt64 := 0
  window : UInt64 := 0
  windowStart : UInt64 := 0
  windowStartMs : UInt64 := 0
  lastAttemptedSequence : UInt64 := 0
  nextToken : UInt64 := 0
  handoffMissing : UInt64 := 0
  handoffInvalid : UInt64 := 0
  handoffOverflow : UInt64 := 0
  shape : Shape := {}
  observedWaitThread : UInt32 := 0
  observedSubmitThread : UInt32 := 0
  observedThreadMismatch : Bool := false

namespace FrameCycle

def toMs (ticks : UInt64) : ℚ := (ticks.toNat : ℚ) / 1000

def ordered (a b c d : UInt64) : Prop := a ≠ 0 ∧ a ≤ b ∧ b ≤ c ∧ c ≤ d

instance (a b c d : UInt64) : Decidable (ordered a b c d) :=
  inferInstanceAs (Decidable (_ ∧ _ ∧ _ ∧ _))

structure PostSums where
  covered : UInt64 := 0
  raw : UInt64 := 0
  before : UInt64 := 0
  after : UInt64 := 0
  trailing : UInt64 := 0
  previousEnd : UInt64
  syncNonzero : Nat := 0

def spanFault (callerThread : UInt32) (beginUs endUs previousEnd : UInt64) (s : PresentSpan) :
    Option PostUnavailable :=
  if s.beginUs = 0 ∨ s.beginUs < beginUs ∨ endUs < s.endUs then some .partialPresent
  else if s.thread ≠ callerThread then some .wrongPresentThread
  else if s.result < 0 then some .failedPresent
  else if s.flags &&& 1 ≠ 0 then some .testPresent
  else if s.beginUs < previousEnd ∨ ¬ordered s.beginUs s.realBeginUs s.realEndUs s.bodyEndUs ∨
      s.endUs < s.bodyEndUs then some .malformedPresent
  else none

def PostSums.add (sums : PostSums) (s : PresentSpan) : PostSums where
  covered := sums.covered + (s.endUs - s.beginUs)
  before := sums.before + (s.realBeginUs - s.beginUs)
  raw := sums.raw + (s.realEndUs - s.realBeginUs)
  after := sums.after + (s.bodyEndUs - s.realEndUs)
  trailing := sums.trailing + (s.endUs - s.bodyEndUs)
  previousEnd := s.endUs
  syncNonzero := if s.syncInterval ≠ 0 then sums.syncNonzero + 1 else sums.syncNonzero

def accountSpans (callerThread : UInt32) (beginUs endUs : UInt64) (sums : PostSums) :
    List PresentSpan → PostSums × Option PostUnavailable
  | [] => (sums, none)
  | s :: rest =>
    match spanFault callerThread beginUs endUs sums.previousEnd s with
    | some why => (sums, some why)
    | none => accountSpans callerThread beginUs endUs (sums.add s) rest

def presentTraceSize : UInt32 := 928

def traceFault (c : Current) (endUs : UInt64) (trace : PresentTrace) : Option PostUnavailable :=
  if trace.version ≠ 1 then some .badProviderVersion
  else if trace.size < presentTraceSize then some .badProviderSize
  else if trace.generation = 0 ∨ trace.generation ≠ c.shape.generation then
    some .badProviderGeneration
  else if trace.totalObserved = 0 then some .notYetObservable
  else if trace.overflow ≠ 0 then some .lostPresentHistory
  else if trace.count.toNat > presentTraceCapacity then some .malformedPresent
  else if c.submitReturn 1 = 0 ∨ endUs < c.submitReturn 1 then some .malformedPresent
  else none

namespace Current

def rejectPost (c : Current) (why : PostUnavailable) : Current :=
  { c with postValid := false, postUnavailable := why }

def partsOf (sums : PostSums) (count : Nat) (interval : UInt64) : PostParts :=
  { presentCount := count
    rawPresent := toMs sums.raw
    edvrBeforePresent := toMs sums.before
    edvrAfterPresent := toMs sums.after
    edvrPresent := toMs (sums.before + sums.after)
    trailingCallback := toMs sums.trailing
    outsidePresent := toMs (interval - sums.covered)
    postResidual := toMs interval - toMs (interval - sums.covered) - toMs sums.raw -
      toMs sums.before - toMs sums.after - toMs sums.trailing }

def accountPost (c : Current) (trace : Option PresentTrace) (endUs : UInt64) : Current :=
  let beginUs := c.submitReturn 1
  let invalid := UInt64.ofNat (c.handoffs.countP fun h => decide (endUs < h.endUs))
  let c := { c with handoffInvalid := c.handoffInvalid + invalid }
  match trace with
  | none => c.rejectPost .providerMissing
  | some trace =>
    match traceFault c endUs trace with
    | some why => c.rejectPost why
    | none =>
      let (sums, fault) := accountSpans c.callerThread beginUs endUs { previousEnd := beginUs }
        (trace.spans.toList.take trace.count.toNat)
      let c := { c with syncNonzeroPresent := c.syncNonzeroPresent + sums.syncNonzero }
      match fault with
      | some why => c.rejectPost why
      | none =>
        let interval := endUs - beginUs
        if sums.covered > interval then c.rejectPost .malformedPresent
        else
          let c := { c with
            postValid := true, postUnavailable := .postAvailable
            post := { partsOf sums trace.count.toNat interval with
              beforePresent := c.post.beforePresent, afterPresent := c.post.afterPresent }
            singlePresent := trace.count == 1 }
          if trace.count = 1 then
            let span := trace.spans[0]
            { c with
              presentBegin := span.beginUs, presentEnd := span.endUs
              post := { c.post with
                beforePresent := toMs (span.beginUs - beginUs)
                afterPresent := toMs (endUs - span.endUs) } }
          else c

end Current

/-- One handoff joined to the union of those before it: where the union's last stretch
begins and ends, and how long the earlier stretches are. -/
def joinHandoff (waitBegin : UInt64) (union : UInt64 × UInt64 × UInt64) (h : Handoff) :
    UInt64 × UInt64 × UInt64 :=
  let (unionBegin, unionEnd, unionUs) := union
  if waitBegin < h.endUs then union
  else if unionBegin = 0 then (h.beginUs, h.endUs, unionUs)
  else if h.beginUs ≤ unionEnd then (unionBegin, max unionEnd h.endUs, unionUs)
  else (h.beginUs, h.endUs, unionUs + (unionEnd - unionBegin))

/-- The time that the handoffs before the next wait cover together. -/
def handoffUnion (waitBegin : UInt64) (handoffs : List Handoff) : UInt64 :=
  let sorted := handoffs.mergeSort fun a b =>
    decide (a.beginUs < b.beginUs ∨ a.beginUs = b.beginUs ∧ a.endUs ≤ b.endUs)
  let (unionBegin, unionEnd, unionUs) := sorted.foldl (joinHandoff waitBegin) (0, 0, 0)
  if unionBegin ≠ 0 then unionUs + (unionEnd - unionBegin) else unionUs

def sampleOf (c : Current) (wait : Wait) (nextWaitReturn : UInt64) (waitThread : UInt32)
    (frameEndOwnerMs : ℚ) : Sample :=
  let cycle := toMs (nextWaitReturn - c.waitReturn)
  let nextWait := toMs (nextWaitReturn - wait.beginUs)
  let parts := toMs c.beforeFirst + toMs (c.submitRound 0) + toMs c.between +
    toMs (c.submitRound 1) + toMs c.afterSecond + nextWait
  { sequence := c.sequence
    cycle := cycle
    beforeFirst := toMs c.beforeFirst
    firstSubmit := toMs (c.submitRound 0)
    betweenEyes := toMs c.between
    secondSubmit := toMs (c.submitRound 1)
    afterSecond := toMs c.afterSecond
    nextWait := nextWait
    residual := cycle - parts
    waitOwner := toMs (wait.ownerEnd - wait.ownerBegin)
    submitOwner := (toMs (c.owner 0), toMs (c.owner 1))
    renderPark := (c.park 0, c.park 1)
    frameEndOwnerBody := frameEndOwnerMs
    nextWaitQueueDelay := toMs (wait.ownerBegin - wait.beginUs)
    post := c.post
    handoffCount := c.handoffs.length
    handoffNested := toMs (handoffUnion wait.beginUs c.handoffs)
    syncNonzeroPresent := c.syncNonzeroPresent
    eyeOrder := (c.order 0, c.order 1)
    callerThread := c.callerThread
    waitThread := waitThread
    postUnavailable := c.postUnavailable
    postValid := c.postValid
    singlePresent := c.singlePresent
    handoffValid := c.handoffInvalid == 0 && c.handoffOverflow == 0 }

def completedOf (c : Current) (wait : Wait) (nextWaitReturn : UInt64) (waitThread : UInt32)
    (s : Sample) : Completed where
  sequence := c.sequence
  generation := c.shape.generation
  featureEpoch := c.shape.featureEpoch
  waitReturnUs := c.waitReturn
  secondSubmitReturnUs := c.submitReturn 1
  nextWaitEntryUs := wait.beginUs
  nextWaitReturnUs := nextWaitReturn
  presentBeginUs := if c.postValid && c.singlePresent then c.presentBegin else 0
  presentEndUs := if c.postValid && c.singlePresent then c.presentEnd else 0
  callerThread := c.callerThread
  nextWaitThread := waitThread
  sceneReady := c.shape.sceneReady
  postUnavailable := c.postUnavailable
  postValid := c.postValid
  singlePresent := c.singlePresent
  cycleMs := s.cycle
  beforeFirstMs := s.beforeFirst
  firstSubmitMs := s.firstSubmit
  betweenEyesMs := s.betweenEyes
  secondSubmitMs := s.secondSubmit
  afterSecondMs := s.afterSecond
  nextWaitMs := s.nextWait
  waitOwnerMs := s.waitOwner
  submitOwnerMs := s.submitOwner
  renderParkMs := s.renderPark

end FrameCycle

namespace FrameCycleStats

def note (t : FrameCycleStats) (m : Missing) : FrameCycleStats :=
  { t with missing := Function.update t.missing m (t.missing m + 1) }

def failCurrent (t : FrameCycleStats) : FrameCycleStats := { t with current := {} }

def bad (t : FrameCycleStats) (m : Missing) : FrameCycleStats := (t.note m).failCurrent

def reset (t : FrameCycleStats) (why : Missing) : FrameCycleStats :=
  { t.bad why with
    wait := {}, completed := none, pendingFrameEndOwnerBegin := 0, pendingFrameEndOwnerMs := 0 }

def observeWaitThread (t : FrameCycleStats) (thread : UInt32) : FrameCycleStats :=
  if t.observedWaitThread = 0 then { t with observedWaitThread := thread }
  else if t.observedWaitThread ≠ thread then { t with observedThreadMismatch := true }
  else t

def observeSubmitThread (t : FrameCycleStats) (thread : UInt32) : FrameCycleStats :=
  if t.observedSubmitThread = 0 then { t with observedSubmitThread := thread }
  else if t.observedSubmitThread ≠ thread then { t with observedThreadMismatch := true }
  else t

/-- The distributions of one quantity over the samples of the window, or over those of
them that count for it. -/
def windowDist (t : FrameCycleStats) (field : Sample → ℚ) : Dist := dist (t.samples.map field)

def filteredDist (t : FrameCycleStats) (field : Sample → ℚ) (include_ : Sample → Bool) : Dist :=
  dist ((t.samples.filter include_).map field)

def reportOf (t : FrameCycleStats) (last nowMs : UInt64) : Report :=
  let post := fun s : Sample => s.postValid
  let single := fun s : Sample => s.postValid && s.singlePresent
  let handoff := fun s : Sample => s.handoffValid
  { window := t.window + 1
    firstSequence := (t.samples.head?.map (·.sequence)).getD t.windowStart
    lastSequence := last
    elapsedMs := if t.windowStartMs ≤ nowMs then nowMs - t.windowStartMs else 0
    admitted := t.attempted
    valid := t.samples.length
    shape := t.shape
    missing := t.missing
    cycle := t.windowDist (·.cycle)
    beforeFirst := t.windowDist (·.beforeFirst)
    firstSubmit := t.windowDist (·.firstSubmit)
    betweenEyes := t.windowDist (·.betweenEyes)
    secondSubmit := t.windowDist (·.secondSubmit)
    afterSecond := t.windowDist (·.afterSecond)
    nextWait := t.windowDist (·.nextWait)
    residual := t.windowDist (·.residual)
    waitOwner := t.windowDist (·.waitOwner)
    submitOwner := (t.windowDist (·.submitOwner.1), t.windowDist (·.submitOwner.2))
    renderPark := (t.windowDist (·.renderPark.1), t.windowDist (·.renderPark.2))
    frameEndOwnerBody := t.windowDist (·.frameEndOwnerBody)
    nextWaitQueueDelay := t.windowDist (·.nextWaitQueueDelay)
    callerThread := t.observedSubmitThread
    waitThread := t.observedWaitThread
    threadConsistent := !t.observedThreadMismatch && t.samples.all fun s =>
      s.callerThread == t.observedSubmitThread && s.waitThread == t.observedWaitThread
    postValid := t.samples.countP post
    zeroPresentValid := t.samples.countP fun s => post s && s.post.presentCount == 0
    singlePresentValid := t.samples.countP fun s =>
      post s && s.post.presentCount != 0 && s.singlePresent
    multiplePresentValid := t.samples.countP fun s =>
      post s && s.post.presentCount != 0 && !s.singlePresent
    handoffValid := t.samples.countP handoff
    firstPostSequence := ((t.samples.filter fun s => post s && s.sequence != 0).head?.map
      (·.sequence)).getD 0
    syncNonzeroPresent := ((t.samples.filter post).map (·.syncNonzeroPresent)).sum
    postUnavailable := fun why => t.samples.countP fun s => !post s && s.postUnavailable == why
    handoffMissing := t.handoffMissing
    handoffInvalid := t.handoffInvalid
    handoffOverflow := t.handoffOverflow
    presentCount := t.filteredDist (·.post.presentCount) post
    rawPresent := t.filteredDist (·.post.rawPresent) post
    edvrBeforePresent := t.filteredDist (·.post.edvrBeforePresent) post
    edvrAfterPresent := t.filteredDist (·.post.edvrAfterPresent) post
    edvrPresent := t.filteredDist (·.post.edvrPresent) post
    trailingCallback := t.filteredDist (·.post.trailingCallback) post
    outsidePresent := t.filteredDist (·.post.outsidePresent) post
    postResidual := t.filteredDist (·.post.postResidual) post
    postGap := t.filteredDist (·.afterSecond) post
    beforePresent := t.filteredDist (·.post.beforePresent) single
    afterPresent := t.filteredDist (·.post.afterPresent) single
    handoffCount := t.filteredDist (·.handoffCount) handoff
    handoffNested := t.filteredDist (·.handoffNested) handoff }

def makeReport (t : FrameCycleStats) (last nowMs : UInt64) : FrameCycleStats :=
  { t with
    report := some (t.reportOf last nowMs)
    window := t.window + 1
    samples := [], attempted := 0, missing := fun _ => 0
    windowStart := 0, windowStartMs := 0, lastAttemptedSequence := 0
    observedWaitThread := 0, observedSubmitThread := 0, observedThreadMismatch := false
    handoffMissing := 0, handoffInvalid := 0, handoffOverflow := 0 }

def startWindow (t : FrameCycleStats) (nowMs : UInt64) (shape : Shape) (sequence : UInt64) :
    FrameCycleStats :=
  { t with windowStartMs := nowMs, shape := shape, windowStart := sequence }

def advanceWindow (t : FrameCycleStats) (nowMs : UInt64) (shape : Shape) (sequence : UInt64) :
    FrameCycleStats :=
  let t :=
    if t.windowStartMs = 0 then t.startWindow nowMs shape sequence
    else if nowMs < t.windowStartMs then
      ((t.note .badClock).makeReport t.lastAttemptedSequence nowMs).startWindow nowMs shape sequence
    else if 30000 ≤ nowMs - t.windowStartMs then
      (t.makeReport t.lastAttemptedSequence nowMs).startWindow nowMs shape sequence
    else t
  { t with attempted := t.attempted + 1, lastAttemptedSequence := sequence }

def nameWindow (t : FrameCycleStats) (s : Sample) (shape : Shape) : FrameCycleStats :=
  if t.samples.isEmpty then { t with windowStart := s.sequence, shape := shape } else t

def admitSample (t : FrameCycleStats) (s : Sample) (shape : Shape) (nowMs : UInt64) :
    FrameCycleStats × Bool :=
  let t := t.nameWindow s shape
  if t.samples.length ≥ capacity then ((t.note .overflow).makeReport s.sequence nowMs, false)
  else ({ t with samples := t.samples ++ [s], everComplete := true }, true)

def finishCurrent (t : FrameCycleStats) (nextWaitReturn nowMs : UInt64) (waitThread : UInt32) :
    FrameCycleStats × List Sample :=
  if t.current.eyes ≠ 2 then (t.bad .partialStereo, [])
  else if nextWaitReturn < t.current.waitReturn ∨ ¬t.current.afterSecondReady then
    (t.bad .badClock, [])
  else
    let c := t.current
    let s := sampleOf c t.wait nextWaitReturn waitThread t.pendingFrameEndOwnerMs
    let t := { t with
      pendingFrameEndOwnerMs := 0
      handoffInvalid := t.handoffInvalid + c.handoffInvalid
      handoffOverflow := t.handoffOverflow + c.handoffOverflow }
    if |s.residual| > 1 / 100 ∨ c.sequence = 0 then (t.bad .badClock, [])
    else
      -- The caller's work stands whether or not the window has room for the sample.
      let t := { t with
        callerWorkMs := s.cycle - s.nextWait
        callerWorkMeasured := decide (0 ≤ s.cycle - s.nextWait) }
      let (t, kept) := t.admitSample s c.shape nowMs
      if kept then
        ({ t with completed := some (completedOf c t.wait nextWaitReturn waitThread s) }, [s])
      else (t, [])

def waitCallerBegin (t : FrameCycleStats) (tick : UInt64) (thread : UInt32)
    (trace : Option PresentTrace) : FrameCycleStats :=
  let t := { t with enabled := true }.observeWaitThread thread
  if tick = 0 ∨ t.wait.isOpen then t.note .reentrant
  else
    let t := { t with
      nextToken := t.nextToken + 1
      wait := { isOpen := true, token := t.nextToken + 1, beginUs := tick, thread := thread } }
    if t.current.active ∧ t.current.eyes = 2 then
      let c := { t.current with
        afterSecond := tick - t.current.submitReturn 1, afterSecondReady := true }
      { t with current := c.accountPost trace tick }
    else t

def waitOwnerBegin (t : FrameCycleStats) (token tick : UInt64) : FrameCycleStats :=
  if token ≠ 0 ∧ t.wait.token = token ∧ t.wait.ownerBegin = 0 then
    { t with wait := { t.wait with ownerBegin := tick } }
  else t.note .reentrant

def waitOwnerEnd (t : FrameCycleStats) (token tick : UInt64) : FrameCycleStats :=
  if token ≠ 0 ∧ t.wait.token = token ∧ t.wait.ownerBegin ≠ 0 ∧ t.wait.ownerBegin ≤ tick then
    { t with wait := { t.wait with ownerEnd := tick } }
  else t.note .badClock

def frameEndOwnerBegin (t : FrameCycleStats) (tick : UInt64) : FrameCycleStats :=
  if tick ≠ 0 ∧ t.pendingFrameEndOwnerBegin = 0 then { t with pendingFrameEndOwnerBegin := tick }
  else t

def frameEndOwnerEnd (t : FrameCycleStats) (tick : UInt64) : FrameCycleStats :=
  if t.pendingFrameEndOwnerBegin = 0 ∨ tick < t.pendingFrameEndOwnerBegin then t
  else { t with
    pendingFrameEndOwnerMs := toMs (tick - t.pendingFrameEndOwnerBegin)
    pendingFrameEndOwnerBegin := 0 }

def openedCycle (wait : Wait) (sequence tick nowMs : UInt64) (thread : UInt32) (shape : Shape) :
    Current :=
  { active := true, sequence := sequence, waitReturn := tick
    waitRound := tick - wait.beginUs, waitOwner := wait.ownerEnd - wait.ownerBegin
    callerThread := thread, waitThread := thread, shape := shape, atMs := nowMs }

/-- The cycle in progress as the wait leaves it: dropped where the frames changed shape, else
finished. -/
def closeCycle (t : FrameCycleStats) (tick nowMs : UInt64) (thread : UInt32) (shape : Shape) :
    FrameCycleStats × List Sample :=
  if t.current.active ∧ t.current.shape ≠ shape then
    let t := t.note .shapeChange
    let t := if t.windowStartMs ≠ 0 then t.makeReport t.lastAttemptedSequence nowMs else t
    (t.failCurrent, [])
  else if t.current.active then t.finishCurrent tick nowMs thread
  else (t, [])

/-- The closed cycle hands its caller's work to the one that is opened, and to no later one. -/
def openCycle (t : FrameCycleStats) (sequence tick nowMs : UInt64) (thread : UInt32)
    (shape : Shape) : FrameCycleStats :=
  { t with
    current := openedCycle t.wait sequence tick nowMs thread shape
    wait := {}
    callerWorkFor := if t.callerWorkMeasured then sequence else t.callerWorkFor
    callerWorkMeasured := false }

def forgetCompleted (t : FrameCycleStats) : FrameCycleStats :=
  { t with completed := none, callerWorkFor := 0, callerWorkMeasured := false }

def dropWait (t : FrameCycleStats) (token : UInt64) : FrameCycleStats :=
  if t.wait.token = token then { t with wait := {} } else t

def waitCallerEnd (t : FrameCycleStats) (token sequence tick nowMs : UInt64) (thread : UInt32)
    (shape : Shape) (ok : Bool) : FrameCycleStats × List Sample :=
  let t := t.forgetCompleted
  if ¬ok ∨ token = 0 ∨ t.wait.token ≠ token ∨ ¬t.wait.isOpen ∨
      ¬ordered t.wait.beginUs t.wait.ownerBegin t.wait.ownerEnd tick ∨ thread ≠ t.wait.thread then
    let t := (t.advanceWindow nowMs shape sequence).bad (if ok then .badClock else .partialStereo)
    (t.dropWait token, [])
  else
    let (t, admitted) := t.closeCycle tick nowMs thread shape
    ((t.advanceWindow nowMs shape sequence).openCycle sequence tick nowMs thread shape, admitted)

def submitCallerBegin (t : FrameCycleStats) (eye : Nat) (tick : UInt64) (thread : UInt32) :
    FrameCycleStats :=
  let t := t.observeSubmitThread thread
  if ¬t.current.active ∨ eye > 1 ∨ t.current.submitOpen ∨ t.current.eyes ≥ 2 then t.note .reentrant
  else if t.current.seen eye then t.bad .duplicateEye
  else if tick = 0 ∨ tick < t.current.waitReturn ∨
      t.current.eyes ≠ 0 ∧ tick < t.current.submitReturn 0 then t.bad .badClock
  else
    let c := { t.current with
      submitOpen := true, submitToken := t.nextToken + 1, submitBegin := tick
      submitThread := thread, order := Function.update t.current.order t.current.eyes eye }
    { t with
      nextToken := t.nextToken + 1
      current :=
        if c.eyes = 0 then { c with beforeFirst := tick - c.waitReturn }
        else { c with between := tick - c.submitReturn 0 } }

def submitOwnerBegin (t : FrameCycleStats) (token tick : UInt64) : FrameCycleStats :=
  if token ≠ 0 ∧ t.current.submitToken = token ∧ t.current.submitOpen ∧
      t.current.ownerBegin = 0 then
    { t with current := { t.current with ownerBegin := tick } }
  else t.note .reentrant

def submitOwnerEnd (t : FrameCycleStats) (token tick : UInt64) : FrameCycleStats :=
  if token ≠ 0 ∧ t.current.submitToken = token ∧ t.current.ownerBegin ≠ 0 ∧
      t.current.ownerBegin ≤ tick then
    { t with current := { t.current with ownerEnd := tick } }
  else t.note .badClock

def submitCallerEnd (t : FrameCycleStats) (token : UInt64) (eye : Nat) (sequence tick : UInt64)
    (thread : UInt32) (renderParkMs : Option ℚ) (ok : Bool) : FrameCycleStats :=
  let c := t.current
  if c.submitOpen ∧ thread ≠ c.submitThread then t.bad .wrongThread
  else if ¬ok ∨ token = 0 ∨ c.submitToken ≠ token ∨ ¬c.submitOpen ∨ eye ≠ c.order c.eyes ∨
      sequence ≠ c.sequence ∨ ¬ordered c.submitBegin c.ownerBegin c.ownerEnd tick ∨
      renderParkMs.all (· < 0) then t.bad (if ok then .badSequence else .partialStereo)
  else if c.callerThread ≠ thread ∨ c.submitThread ≠ thread then t.bad .wrongThread
  else
    { t with current := { c with
        submitRound := Function.update c.submitRound c.eyes (tick - c.submitBegin)
        owner := Function.update c.owner c.eyes (c.ownerEnd - c.ownerBegin)
        park := Function.update c.park c.eyes (renderParkMs.getD 0)
        submitReturn := Function.update c.submitReturn c.eyes tick
        seen := Function.update c.seen eye true
        eyes := c.eyes + 1
        submitOpen := false, submitToken := 0, ownerBegin := 0, ownerEnd := 0 } }

def noteDirectOwner (t : FrameCycleStats) : FrameCycleStats := t.bad .directOwner

def noteHandoff (t : FrameCycleStats) (beginUs endUs sequence : UInt64) (thread : UInt32)
    (ok : Bool) : FrameCycleStats :=
  let c := t.current
  if t.wait.isOpen then
    if c.active ∧ c.eyes = 2 ∧ sequence = c.sequence then
      { t with current := { c with handoffInvalid := c.handoffInvalid + 1 } }
    else { t with handoffMissing := t.handoffMissing + 1 }
  else if ¬c.active ∨ c.eyes ≠ 2 ∨ sequence ≠ c.sequence then
    { t with handoffMissing := t.handoffMissing + 1 }
  else if ¬ok ∨ beginUs = 0 ∨ endUs < beginUs ∨ beginUs < c.submitReturn 1 ∨
      thread ≠ c.callerThread then
    { t with current := { c with handoffInvalid := c.handoffInvalid + 1 } }
  else if c.handoffs.length ≥ handoffCapacity then
    { t with current := { c with handoffOverflow := c.handoffOverflow + 1 } }
  else { t with current := { c with handoffs := c.handoffs ++ [⟨beginUs, endUs⟩] } }

def takeReport (t : FrameCycleStats) : FrameCycleStats × Option Report :=
  ({ t with report := none }, t.report)

def takeCompleted (t : FrameCycleStats) : FrameCycleStats × Option Completed :=
  ({ t with completed := none }, t.completed)

def callerWorkForCurrent (t : FrameCycleStats) : Option ℚ :=
  if ¬t.current.active ∨ t.current.sequence = 0 ∨ t.callerWorkFor ≠ t.current.sequence then none
  else some t.callerWorkMs

end FrameCycleStats

/-- The calls that change something, with what their callers give. -/
inductive CycleCall where
  | enabled
  | reset (why : Missing)
  | waitCallerBegin (tick : UInt64) (thread : UInt32) (trace : Option PresentTrace)
  | waitOwnerBegin (token tick : UInt64)
  | waitOwnerEnd (token tick : UInt64)
  | frameEndOwnerBegin (tick : UInt64)
  | frameEndOwnerEnd (tick : UInt64)
  | waitCallerEnd (token sequence tick nowMs : UInt64) (thread : UInt32) (shape : Shape) (ok : Bool)
  | submitCallerBegin (eye : Nat) (tick : UInt64) (thread : UInt32)
  | submitOwnerBegin (token tick : UInt64)
  | submitOwnerEnd (token tick : UInt64)
  | submitCallerEnd (token : UInt64) (eye : Nat) (sequence tick : UInt64) (thread : UInt32)
      (renderParkMs : Option ℚ) (ok : Bool)
  | noteDirectOwner
  | noteHandoff (beginUs endUs sequence : UInt64) (thread : UInt32) (ok : Bool)
  | takeReport
  | takeCompleted

def FrameCycleStats.call (t : FrameCycleStats) : CycleCall → FrameCycleStats × List Sample
  | .enabled => ({ t with enabled := true }, [])
  | .reset why => (t.reset why, [])
  | .waitCallerBegin tick thread trace => (t.waitCallerBegin tick thread trace, [])
  | .waitOwnerBegin token tick => (t.waitOwnerBegin token tick, [])
  | .waitOwnerEnd token tick => (t.waitOwnerEnd token tick, [])
  | .frameEndOwnerBegin tick => (t.frameEndOwnerBegin tick, [])
  | .frameEndOwnerEnd tick => (t.frameEndOwnerEnd tick, [])
  | .waitCallerEnd token sequence tick nowMs thread shape ok =>
    t.waitCallerEnd token sequence tick nowMs thread shape ok
  | .submitCallerBegin eye tick thread => (t.submitCallerBegin eye tick thread, [])
  | .submitOwnerBegin token tick => (t.submitOwnerBegin token tick, [])
  | .submitOwnerEnd token tick => (t.submitOwnerEnd token tick, [])
  | .submitCallerEnd token eye sequence tick thread renderParkMs ok =>
    (t.submitCallerEnd token eye sequence tick thread renderParkMs ok, [])
  | .noteDirectOwner => (t.noteDirectOwner, [])
  | .noteHandoff beginUs endUs sequence thread ok =>
    (t.noteHandoff beginUs endUs sequence thread ok, [])
  | .takeReport => (t.takeReport.1, [])
  | .takeCompleted => (t.takeCompleted.1, [])

/-- The account after the calls, and every sample admitted on the way. -/
def cycleRun (calls : List CycleCall) : FrameCycleStats × List Sample :=
  traced FrameCycleStats.call {} calls

end EdvrPatch.OpenXr
