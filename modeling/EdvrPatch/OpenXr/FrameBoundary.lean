import EdvrPatch.OpenXr.SessionState

/-! The submit boundary of `frame_boundary.h` and its pacer, `frame_pacer.h`. The pacer's worker
moves between two calls of the owner and while the owner blocks in `take` or `stop`; elsewhere the
owner looks at the pacer only under its mutex, so a method may run in one step. Clock readings, the
sink's verdicts and the runtime's answers are inputs. The counters and wall times that only feed the
report are left out. -/
namespace EdvrPatch.OpenXr

structure WaitAnswer where
  result : XrResult := XrResult.success
  state : XrFrameState := ⟨0, 0, 0⟩
  deriving DecidableEq, Repr

inductive EVREye where
  | left | right
  | other (code : Int)
  deriving DecidableEq, Repr

inductive EVRCompositorError where
  | none | invalidTexture | indexOutOfRange
  | other (code : Int)
  deriving DecidableEq, Repr

inductive SinkCall where
  | capture (eye : EVREye) (copyPixels : Bool)
  | compose
  | composeBackground
  | sceneFinished (pixels : Bool) (result : XrResult)
  deriving DecidableEq, Repr

inductive LoopEntry where
  | session (entry : Entry)
  | sink (call : SinkCall)
  | waitStarted
  | waitReturned (answer : WaitAnswer)
  | admitted (predictedDisplayTime : Int)
  deriving DecidableEq, Repr

/-- `calling` is where the worker thread stands: inside `xrWaitFrame`, or asleep
on the condition variable. -/
structure FramePacer where
  bound : Bool := false
  pending : Bool := false
  done : Bool := false
  calling : Bool := false
  answer : WaitAnswer := {}
  deriving DecidableEq, Repr

namespace FramePacer

def kick (p : FramePacer) : Option FramePacer :=
  if ¬p.bound then none
  else if p.pending then none
  else some { p with pending := true, done := false }

def ready (p : FramePacer) : Bool := p.pending && p.done

/-- The worker wakes to a pending wait and leaves the lock for `xrWaitFrame`. -/
def workerStarts (p : FramePacer) : FramePacer × List LoopEntry :=
  if p.pending ∧ ¬p.done ∧ ¬p.calling then ({ p with calling := true }, [.waitStarted])
  else (p, [])

def workerReturns (p : FramePacer) (answer : WaitAnswer) : FramePacer × List LoopEntry :=
  if p.calling then
    ({ p with calling := false, done := true, answer := answer }, [.waitReturned answer])
  else (p, [])

/-- `take`. An owner that comes too early blocks until the worker has made its
call, whose answer is then `late`. -/
def take (p : FramePacer) (late : WaitAnswer) :
    Option (FramePacer × List LoopEntry × WaitAnswer) :=
  if ¬p.pending then none
  else
    let started := if p.done then (p, []) else p.workerStarts
    let returned := started.1.workerReturns late
    some ({ returned.1 with pending := false, done := false }, started.2 ++ returned.2,
      returned.1.answer)

/-- `stop` waits for a call in flight and drops what nobody took. A wait that the
worker has not started is never made. -/
def stop (p : FramePacer) (inFlight : WaitAnswer) : FramePacer × List LoopEntry :=
  let joined := p.workerReturns inFlight
  ({ joined.1 with pending := false, done := false }, joined.2)

def bind (p : FramePacer) (bound : Bool) (inFlight : WaitAnswer) :
    FramePacer × List LoopEntry :=
  let stopped := p.stop inFlight
  ({ stopped.1 with bound := bound }, stopped.2)

end FramePacer

inductive FramePacing where
  | runtime | deferred
  deriving DecidableEq, Repr

/-- The fields of the composed `XrCompositionLayerProjection` that are checked;
`typed` says that its type is still the projection's. -/
structure ProjectionLayer where
  typed : Bool := true
  next : Bool := false
  space : Nat := 0
  viewCount : Nat := 0
  views : Bool := false
  deriving DecidableEq, Repr

def ProjectionLayer.malformed (layer : ProjectionLayer) : Bool :=
  !layer.typed || layer.next || layer.space == 0 || layer.viewCount != 2 || !layer.views

structure SinkAnswers where
  sceneLayerAvailable : Bool := true
  composed : XrResult := XrResult.success
  layer : ProjectionLayer := {}

/-- What the runtime and the clock say while one frame is begun and ended:
`waited` to the direct wait or to a worker the owner had to wait for, `realAt`
to `Clock::now()` in `noteReal`. -/
structure Answers where
  waited : WaitAnswer := {}
  begun : XrResult := XrResult.success
  ended : XrResult := XrResult.success
  realAt : Int := 0

/-- The clock's `time_point{}` is zero. `accepted` is indexed by the eye. -/
structure FrameBoundary where
  session : SessionState
  pacer : Option FramePacer := none
  frame : Frame := {}
  accepted : Bool × Bool := (false, false)
  geometryReady : Bool := false
  failed : Bool := false
  lastResult : XrResult := XrResult.success
  turbo : Bool := false
  deferred : Bool := false
  lastReal : Int := 0
  lastPeriod : Int := 0
  waitEntry : Int := 0
  lastRealAt : Int := 0
  lastHandedOut : Int := 0
  deriving DecidableEq, Repr

structure Outcome (ρ : Type) where
  boundary : FrameBoundary
  log : List LoopEntry := []
  result : ρ

def Outcome.following {ρ : Type} (outcome : Outcome ρ) (log : List LoopEntry) : Outcome ρ :=
  { outcome with log := log ++ outcome.log }

namespace FrameBoundary

/-- `lastResult_ = session_.f(…, frame_)`: the session moves on, the result is
kept and a frame that was written is the boundary's own. -/
def settle (b : FrameBoundary) (reply : Reply) : FrameBoundary :=
  { b with
    session := reply.state, frame := reply.frame.getD b.frame, lastResult := reply.result }

def pacerBound (b : FrameBoundary) : Bool := b.pacer.any (·.bound)

def pacerPending (b : FrameBoundary) : Bool := b.pacer.any (·.pending)

def pacerReady (b : FrameBoundary) : Bool := b.pacer.any (·.ready)

def noteReal (b : FrameBoundary) (waited : XrResult) (predictedTime period realAt : Int) :
    FrameBoundary :=
  if (waited = XrResult.success ∨ waited = XrResult.sessionLossPending) ∧ 0 < predictedTime then
    { b with lastReal := predictedTime, lastPeriod := period, lastRealAt := realAt }
  else b

def canSynthesize (b : FrameBoundary) : Bool :=
  0 < b.lastReal && 0 < b.lastPeriod && b.lastRealAt != 0

def synthesizedTime (b : FrameBoundary) : Int :=
  let elapsed := b.waitEntry - b.lastRealAt
  let step := if elapsed < b.lastPeriod then b.lastPeriod else elapsed
  let cap := b.lastPeriod * 2
  b.lastReal + if step > cap then cap else step

def admitFrame (b : FrameBoundary) : FrameBoundary :=
  let time := if b.frame.predictedDisplayTime < b.lastHandedOut then b.lastHandedOut
    else b.frame.predictedDisplayTime
  { b with frame := { b.frame with predictedDisplayTime := time }, lastHandedOut := time }

def handOut (b : FrameBoundary) (log : List LoopEntry) : Outcome XrResult :=
  { boundary := b.admitFrame
    log := log ++ [.admitted b.admitFrame.frame.predictedDisplayTime]
    result := b.lastResult }

def refuse (b : FrameBoundary) (log : List LoopEntry) : Outcome XrResult :=
  { boundary := { b with failed := true }, log := log, result := b.lastResult }

inductive Completion where
  | untaken | refused | completed
  deriving DecidableEq, Repr

def takeWait (b : FrameBoundary) (late : WaitAnswer) :
    Option (FrameBoundary × List LoopEntry × WaitAnswer) :=
  match b.pacer.bind (·.take late) with
  | none => none
  | some (pacer, log, answer) => some ({ b with pacer := some pacer }, log, answer)

/-- The real begin of a deferred frame, which `finish` and `clear` share. -/
def completeDeferred (b : FrameBoundary) (answers : Answers) : Outcome Completion :=
  match b.takeWait answers.waited with
  | none =>
    { boundary := { b with
        deferred := false, failed := true, lastResult := XrResult.callOrderInvalid }
      result := .untaken }
  | some (taken, log, waited) =>
    let noted := ({ taken with deferred := false }).noteReal waited.result
      waited.state.predictedDisplayTime waited.state.predictedDisplayPeriod answers.realAt
    let reply := noted.session.beginDeferred waited.result waited.state answers.begun
    let b := noted.settle reply
    let log := log ++ reply.log.map .session
    if reply.result ≠ XrResult.success ∧ reply.result ≠ XrResult.frameDiscarded ∧
        reply.result ≠ XrResult.sessionLossPending then
      { boundary := { b with failed := true }, log := log, result := .refused }
    else
      { boundary := b, log := log, result := .completed }

def complete (b : FrameBoundary) (answers : Answers) : Outcome Completion :=
  if b.deferred then b.completeDeferred answers else { boundary := b, result := .completed }

def endEmpty (b : FrameBoundary) (answers : Answers) : Outcome XrResult :=
  let reply := b.session.endFrame b.frame {} ⟨false, false⟩ answers.ended
  let b := b.settle reply
  { boundary := if reply.result ≠ XrResult.success then { b with failed := true }
      else { b with accepted := (false, false), geometryReady := false }
    log := reply.log.map .session
    result := reply.result }

def clear (b : FrameBoundary) (ownerThread : Bool) (answers : Answers) : Outcome XrResult :=
  if ¬ownerThread then { boundary := b, result := XrResult.callOrderInvalid }
  else if b.failed then { boundary := b, result := b.lastResult }
  else if b.session.frameOpen then
    let begun := b.complete answers
    if begun.result = .completed then (begun.boundary.endEmpty answers).following begun.log
    else { boundary := begun.boundary, log := begun.log, result := begun.boundary.lastResult }
  else
    { boundary := { b with accepted := (false, false), geometryReady := false }
      result := XrResult.success }

def openSynthesized (b : FrameBoundary) : Outcome XrResult :=
  let reply := b.session.openDeferred b.synthesizedTime b.lastPeriod
  let b := b.settle reply
  if reply.result < 0 then b.refuse (reply.log.map .session)
  else ({ b with deferred := true }).handOut (reply.log.map .session)

/-- A frame begun on the wait the pacer already holds, `session_.beginWaited`. -/
def openTaken (b : FrameBoundary) (answers : Answers) : Outcome XrResult :=
  match b.takeWait answers.waited with
  -- Not reached: the caller has just seen a pending wait, and only it takes one.
  | none => { boundary := b, result := b.lastResult }
  | some (taken, log, waited) =>
    let noted := taken.noteReal waited.result waited.state.predictedDisplayTime
      waited.state.predictedDisplayPeriod answers.realAt
    let reply := noted.session.beginWaited waited.result waited.state answers.begun
    let b := noted.settle reply
    let log := log ++ reply.log.map .session
    if reply.result < 0 then b.refuse log else b.handOut log

/-- A frame begun on a blocking wait of the owner's own, `session_.waitAndBegin`. -/
def openDirect (b : FrameBoundary) (answers : Answers) : Outcome XrResult :=
  let reply := b.session.waitAndBegin answers.waited.result answers.waited.state answers.begun
  let b := b.settle reply
  let log := reply.log.map .session
  if reply.result < 0 then b.refuse log
  else
    (b.noteReal XrResult.success b.frame.predictedDisplayTime b.frame.predictedDisplayPeriod
      answers.realAt).handOut log

def openFrame (b : FrameBoundary) (answers : Answers) : Outcome XrResult :=
  if b.pacerPending then
    if b.turbo && !b.pacerReady && b.canSynthesize then b.openSynthesized
    else b.openTaken answers
  else if b.turbo && b.canSynthesize then
    match b.pacer.bind FramePacer.kick with
    | some kicked => ({ b with pacer := some kicked }).openSynthesized
    | none => b.openDirect answers
  else b.openDirect answers

def waitAndBegin (b : FrameBoundary) (ownerThread : Bool) (pacing : FramePacing)
    (waitEntry : Int) (closing opening : Answers) : Outcome XrResult :=
  if ¬ownerThread then { boundary := b, result := XrResult.callOrderInvalid }
  else if b.failed then { boundary := b, result := b.lastResult }
  else
    let closed := b.clear ownerThread closing
    if closed.result ≠ XrResult.success then closed
    else
      let b := { closed.boundary with
        frame := {}, waitEntry := waitEntry
        turbo := pacing == FramePacing.deferred && closed.boundary.pacerBound }
      (b.openFrame opening).following closed.log

def setGeometryReady (b : FrameBoundary) (ownerThread ready : Bool) : FrameBoundary :=
  if ownerThread ∧ b.session.frameOpen ∧ ¬b.accepted.1 ∧ ¬b.accepted.2 then
    { b with geometryReady := ready }
  else b

def acceptedEye (b : FrameBoundary) : EVREye → Option Bool
  | .left => some b.accepted.1
  | .right => some b.accepted.2
  | .other _ => none

def accept (b : FrameBoundary) : EVREye → FrameBoundary
  | .left => { b with accepted := (true, b.accepted.2) }
  | .right => { b with accepted := (b.accepted.1, true) }
  | .other _ => b

/-- `publish`, with the sink's verdict on the captured eye. The second part of
the result is `pairReady`. -/
def publish (b : FrameBoundary) (ownerThread : Bool) (eye : EVREye)
    (captured : EVRCompositorError) : Outcome (EVRCompositorError × Bool) :=
  if ¬ownerThread then { boundary := b, result := (.invalidTexture, false) }
  else
    match b.acceptedEye eye with
    | none => { boundary := b, result := (.indexOutOfRange, false) }
    | some accepted =>
      if b.failed ∨ ¬b.session.frameOpen ∨ accepted then
        { boundary := b, result := (.invalidTexture, false) }
      else
        let pixels := b.geometryReady && b.frame.shouldRender && !b.session.terminal
        let log : List LoopEntry := [.sink (.capture eye pixels)]
        if captured ≠ .none then { boundary := b, log := log, result := (captured, false) }
        else
          let b := b.accept eye
          { boundary := b, log := log, result := (.none, b.accepted.1 && b.accepted.2) }

def kickNext (b : FrameBoundary) : FrameBoundary :=
  if b.turbo ∧ b.lastResult = XrResult.success ∧ ¬b.session.terminal then
    match b.pacer.bind FramePacer.kick with
    | some kicked => { b with pacer := some kicked }
    | none => b
  else b

def finishBegun (b : FrameBoundary) (ownerThread background : Bool) (answers : Answers)
    (sink : SinkAnswers) : Outcome XrResult :=
  let pixels := b.geometryReady && b.frame.shouldRender && !b.session.terminal &&
    (background || sink.sceneLayerAvailable)
  let composing : List LoopEntry := if pixels then
    [.sink (if background then .composeBackground else .compose)] else []
  if pixels ∧ sink.composed ≠ XrResult.success then
    -- A hard failure may have taken the session with it: nothing more is dispatched.
    let closed : Outcome XrResult := if 0 ≤ sink.composed then b.clear ownerThread answers
      else { boundary := b, result := XrResult.success }
    { boundary := { closed.boundary with failed := true, lastResult := sink.composed }
      log := composing ++ closed.log
      result := sink.composed }
  else if pixels ∧ sink.layer.malformed then
    let closed := b.clear ownerThread answers
    { boundary := { closed.boundary with
        failed := true, lastResult := XrResult.validationFailure }
      log := composing ++ closed.log
      result := XrResult.validationFailure }
  else
    let info : XrFrameEndInfo := { layerCount := if pixels then 1 else 0, layers := pixels }
    let reply := b.session.endFrame b.frame info ⟨b.geometryReady, pixels⟩ answers.ended
    let b := b.settle reply
    let b := if reply.result ≠ XrResult.success then { b with failed := true } else b
    { boundary := b.kickNext
      log := composing ++ reply.log.map .session ++
        if background then [] else [.sink (.sceneFinished pixels reply.result)]
      result := reply.result }

def finish (b : FrameBoundary) (ownerThread background : Bool) (answers : Answers)
    (sink : SinkAnswers) : Outcome XrResult :=
  let begun := b.complete answers
  match begun.result with
  | .untaken =>
    { boundary := begun.boundary, log := begun.log, result := begun.boundary.lastResult }
  | .refused =>
    { boundary := begun.boundary
      log := begun.log ++ if background then []
        else [.sink (.sceneFinished false begun.boundary.lastResult)]
      result := begun.boundary.lastResult }
  | .completed =>
    -- The real answer for a frame the game was already handed.
    let answered := if b.deferred then
      { begun.boundary with frame := { begun.boundary.frame with
          shouldRender := begun.boundary.session.frameShouldRender
          discarded := begun.boundary.lastResult == XrResult.frameDiscarded } }
      else begun.boundary
    (answered.finishBegun ownerThread background answers sink).following begun.log

def finishPair (b : FrameBoundary) (ownerThread : Bool) (answers : Answers)
    (sink : SinkAnswers) : Outcome XrResult :=
  b.finish ownerThread false answers sink

def submit (b : FrameBoundary) (ownerThread : Bool) (eye : EVREye)
    (captured : EVRCompositorError) (answers : Answers) (sink : SinkAnswers) :
    Outcome EVRCompositorError :=
  let published := b.publish ownerThread eye captured
  if published.result.1 ≠ .none ∨ ¬published.result.2 then
    { boundary := published.boundary, log := published.log, result := published.result.1 }
  else
    let finished := published.boundary.finishPair ownerThread answers sink
    { boundary := finished.boundary
      log := published.log ++ finished.log
      result := if finished.result = XrResult.success then .none else .invalidTexture }

def background (b : FrameBoundary) (ownerThread : Bool) (answers : Answers)
    (sink : SinkAnswers) : Outcome XrResult :=
  if ¬ownerThread then { boundary := b, result := XrResult.callOrderInvalid }
  else if b.failed then { boundary := b, result := b.lastResult }
  else if ¬b.session.frameOpen ∨ b.accepted.1 ∨ b.accepted.2 then
    { boundary := b, result := XrResult.callOrderInvalid }
  else b.finish ownerThread true answers sink

/-- The wait that `drain` takes becomes a frame without layers where the session
still admits one. The frame is a scratch one: the boundary's own is not touched. -/
def drainWait (b : FrameBoundary) (answers : Answers) : Outcome XrResult :=
  match b.takeWait answers.waited with
  | none => { boundary := b, result := b.lastResult }
  | some (taken, log, waited) =>
    if taken.session.running ∧ ¬taken.session.terminal ∧
        (waited.result = XrResult.success ∨ waited.result = XrResult.sessionLossPending) then
      let noted := taken.noteReal waited.result waited.state.predictedDisplayTime
        waited.state.predictedDisplayPeriod answers.realAt
      let begun := noted.session.beginWaited waited.result waited.state answers.begun
      let b := { noted with session := begun.state }
      let log := log ++ begun.log.map .session
      if begun.result = XrResult.success then
        let ended := b.session.endFrame (begun.frame.getD {}) {} ⟨false, false⟩ answers.ended
        { boundary := { b with
            session := ended.state, lastResult := ended.result
            failed := b.failed || decide (ended.result < 0) }
          log := log ++ ended.log.map .session
          result := ended.result }
      else { boundary := b, log := log, result := b.lastResult }
    else { boundary := taken, log := log, result := taken.lastResult }

def drain (b : FrameBoundary) (ownerThread : Bool) (closing scratch : Answers) :
    Outcome XrResult :=
  if ¬ownerThread then { boundary := b, result := XrResult.callOrderInvalid }
  else if b.failed then { boundary := b, result := b.lastResult }
  else
    let cleared := b.clear ownerThread closing
    if cleared.result ≠ XrResult.success then cleared
    else if cleared.boundary.pacerPending then
      (cleared.boundary.drainWait scratch).following cleared.log
    else
      { boundary := cleared.boundary, log := cleared.log
        result := cleared.boundary.lastResult }

end FrameBoundary

/-- The methods of the session that its host calls beside the boundary. The
frame methods are the boundary's own. -/
inductive HostMethod where
  | reset (d : Dispatch) (instanceHandle session : Nat) (blend : BlendMode)
  | abandonAfterOwnerDestruction
  | setUnhandledEventSink (sink : Bool)
  | pollEvents (budget : Nat) (answers : Nat → PollAnswer)
  | startIfReady (answer : XrResult)
  | stop (frameAnswer sessionAnswer : XrResult)

def HostMethod.method : HostMethod → Method
  | .reset d instanceHandle session blend => .reset d instanceHandle session blend
  | .abandonAfterOwnerDestruction => .abandonAfterOwnerDestruction
  | .setUnhandledEventSink sink => .setUnhandledEventSink sink
  | .pollEvents budget answers => .pollEvents budget answers
  | .startIfReady answer => .startIfReady answer
  | .stop frameAnswer sessionAnswer => .stop frameAnswer sessionAnswer

/-- One step of the whole loop: a call on the boundary, a move of the pacer's
worker, or a call of the host on the session or the pacer. -/
inductive LoopStep where
  | waitAndBegin (ownerThread : Bool) (pacing : FramePacing) (waitEntry : Int)
      (closing opening : Answers)
  | setGeometryReady (ownerThread ready : Bool)
  | publish (ownerThread : Bool) (eye : EVREye) (captured : EVRCompositorError)
  | finishPair (ownerThread : Bool) (answers : Answers) (sink : SinkAnswers)
  | submit (ownerThread : Bool) (eye : EVREye) (captured : EVRCompositorError)
      (answers : Answers) (sink : SinkAnswers)
  | background (ownerThread : Bool) (answers : Answers) (sink : SinkAnswers)
  | clear (ownerThread : Bool) (answers : Answers)
  | drain (ownerThread : Bool) (closing scratch : Answers)
  | workerStarts
  | workerReturns (answer : WaitAnswer)
  | bindPacer (bound : Bool) (inFlight : WaitAnswer)
  | stopPacer (inFlight : WaitAnswer)
  | host (method : HostMethod)

namespace FrameBoundary

def movePacer (b : FrameBoundary) (move : FramePacer → FramePacer × List LoopEntry) :
    FrameBoundary × List LoopEntry :=
  match b.pacer with
  | none => (b, [])
  | some pacer => ({ b with pacer := some (move pacer).1 }, (move pacer).2)

def step (b : FrameBoundary) : LoopStep → FrameBoundary × List LoopEntry
  | .waitAndBegin ownerThread pacing waitEntry closing opening =>
    let outcome := b.waitAndBegin ownerThread pacing waitEntry closing opening
    (outcome.boundary, outcome.log)
  | .setGeometryReady ownerThread ready => (b.setGeometryReady ownerThread ready, [])
  | .publish ownerThread eye captured =>
    let outcome := b.publish ownerThread eye captured
    (outcome.boundary, outcome.log)
  | .finishPair ownerThread answers sink =>
    let outcome := b.finishPair ownerThread answers sink
    (outcome.boundary, outcome.log)
  | .submit ownerThread eye captured answers sink =>
    let outcome := b.submit ownerThread eye captured answers sink
    (outcome.boundary, outcome.log)
  | .background ownerThread answers sink =>
    let outcome := b.background ownerThread answers sink
    (outcome.boundary, outcome.log)
  | .clear ownerThread answers =>
    let outcome := b.clear ownerThread answers
    (outcome.boundary, outcome.log)
  | .drain ownerThread closing scratch =>
    let outcome := b.drain ownerThread closing scratch
    (outcome.boundary, outcome.log)
  | .workerStarts => b.movePacer FramePacer.workerStarts
  | .workerReturns answer => b.movePacer (·.workerReturns answer)
  | .bindPacer bound inFlight => b.movePacer (·.bind bound inFlight)
  | .stopPacer inFlight => b.movePacer (·.stop inFlight)
  | .host method =>
    let reply := b.session.call method.method
    ({ b with session := reply.state }, reply.log.map .session)

end FrameBoundary

def loopMachine : Lib.Machine FrameBoundary LoopStep LoopEntry where
  perform b step := b.step step

/-- A boundary over a newly constructed session, with or without a new pacer. -/
def FrameBoundary.construct (owner : UInt64) (built : Construction) (paced : Bool) :
    FrameBoundary :=
  { session := (built.construct owner).state, pacer := if paced then some {} else none }

end EdvrPatch.OpenXr
