import EdvrPatch.Lib.Monitor

/-! The frame policy of `session_state.h`. A method takes the runtime's answers
to the calls it may make and returns the object it leaves, the log of what it
dispatched, and its result. The runtime is free: any code, any event, in any
order. -/
namespace EdvrPatch.OpenXr

/-- `XrResult`: zero and above are success codes, below zero are errors. -/
abbrev XrResult := Int

namespace XrResult

def success : XrResult := 0
def sessionLossPending : XrResult := 3
def eventUnavailable : XrResult := 4
def frameDiscarded : XrResult := 9
def validationFailure : XrResult := -1
def runtimeFailure : XrResult := -2
def functionUnsupported : XrResult := -7
def handleInvalid : XrResult := -12
def instanceLost : XrResult := -13
def sessionLost : XrResult := -17
def callOrderInvalid : XrResult := -37
def blendModeUnsupported : XrResult := -42

end XrResult

/-- `XrSessionState`, with the codes outside the enumeration kept apart. -/
inductive XrSessionState where
  | unknown | idle | ready | synchronized | visible | focused | stopping
  | lossPending | exiting
  | other (code : Int)
  deriving DecidableEq, Repr

inductive Lifecycle where
  | uninitialized | idle | ready | synchronized | visible | focused | stopping
  | ended | exiting | lossPending | sessionLost | instanceLossPending
  | instanceLost | failed
  deriving DecidableEq, Repr

inductive FrameStatus where
  | none | opened | noRender | discarded | sessionLossPending | ended | failed
  deriving DecidableEq, Repr

inductive BlendMode where
  | modeOpaque | additive | alphaBlend
  | other (code : Int)
  deriving DecidableEq, Repr

structure Dispatch where
  pollEvent : Bool := false
  beginSession : Bool := false
  endSession : Bool := false
  waitFrame : Bool := false
  beginFrame : Bool := false
  endFrame : Bool := false
  deriving DecidableEq, Repr

structure RenderReady where
  poseValid : Bool := true
  renderReady : Bool := true
  deriving DecidableEq, Repr

structure Token where
  owner : UInt64
  generation : UInt64
  sequence : UInt64
  deriving DecidableEq, Repr

structure Frame where
  predictedDisplayTime : Int := 0
  predictedDisplayPeriod : Int := 0
  shouldRender : Bool := false
  discarded : Bool := false
  status : FrameStatus := .none
  token : Token := ⟨0, 0, 0⟩
  deriving DecidableEq, Repr

structure XrFrameState where
  predictedDisplayTime : Int
  predictedDisplayPeriod : Int
  shouldRender : Nat
  deriving DecidableEq, Repr

/-- `XrFrameEndInfo`; `layers` and `next` say whether the pointer is set. -/
structure XrFrameEndInfo where
  displayTime : Int := 0
  environmentBlendMode : BlendMode := .other 0
  layerCount : Nat := 0
  layers : Bool := false
  next : Bool := false
  deriving DecidableEq, Repr

inductive XrEvent where
  | instanceLossPending
  | sessionStateChanged (session : Nat) (state : XrSessionState)
  | other (type : Int)
  deriving DecidableEq, Repr

/-- One answer of `xrPollEvent`: the code and what the buffer then holds. -/
structure PollAnswer where
  result : XrResult
  event : XrEvent
  deriving DecidableEq, Repr

inductive Call where
  | pollEvent (answer : PollAnswer)
  | beginSession (answer : XrResult)
  | endSession (answer : XrResult)
  | waitFrame (answer : XrResult)
  | beginFrame (answer : XrResult)
  | endFrame (info : XrFrameEndInfo) (answer : XrResult)
  deriving DecidableEq, Repr

/-- What a run of the object leaves in its log. Besides the dispatched calls
these are the moments a reader of the protocol has to know: a frame handed
out, a hard failure, a rebinding, an abandonment. -/
inductive Entry where
  | call (c : Call)
  | unhandled (event : XrEvent)
  | opened (token : Token) (deferred : Bool)
  | failed (result : XrResult)
  | rebound (session : Nat)
  | abandoned
  deriving DecidableEq, Repr

structure SessionState where
  owner : UInt64
  dispatch : Dispatch := {}
  eventSink : Bool := false
  instanceHandle : Nat := 0
  session : Nat := 0
  blend : BlendMode := .modeOpaque
  lifecycle : Lifecycle := .uninitialized
  state : XrSessionState := .unknown
  running : Bool := false
  frameOpen : Bool := false
  frameShouldRender : Bool := false
  terminal : Bool := false
  hardFailure : Bool := false
  deferred : Bool := false
  frameTime : Int := 0
  sequence : UInt64 := 0
  generation : UInt64 := 0
  lastResult : XrResult := XrResult.success
  deriving DecidableEq, Repr

/-- What a method leaves behind. `frame` is the caller's frame where the
method wrote to it. -/
structure Reply where
  state : SessionState
  log : List Entry := []
  result : XrResult
  frame : Option Frame := none

def Reply.following (reply : Reply) (log : List Entry) : Reply :=
  { reply with log := log ++ reply.log }

@[simp] theorem Reply.following_state (reply : Reply) (log : List Entry) :
    (reply.following log).state = reply.state := rfl

@[simp] theorem Reply.following_log (reply : Reply) (log : List Entry) :
    (reply.following log).log = log ++ reply.log := rfl

namespace SessionState

def kMaxEvents : Nat := 32

def clearFrame (s : SessionState) : SessionState :=
  { s with frameOpen := false, frameShouldRender := false, deferred := false, frameTime := 0 }

def clear (s : SessionState) : SessionState :=
  { s.clearFrame with
    generation := s.generation + 1, sequence := 0
    running := false, terminal := false, hardFailure := false
    lifecycle := .uninitialized, state := .unknown, lastResult := XrResult.success
    eventSink := false }

/-- `note`: pending loss stays observable after a successful call. -/
def note (s : SessionState) (r : XrResult) : SessionState :=
  let terminal := s.terminal || r == XrResult.sessionLossPending
  let lifecycle :=
    if r = XrResult.sessionLossPending ∧ s.lifecycle ≠ .instanceLossPending then .lossPending
    else s.lifecycle
  { s with
    terminal := terminal
    lifecycle := lifecycle
    lastResult :=
      if terminal = true ∧ lifecycle = .lossPending then XrResult.sessionLossPending else r }

def fail (s : SessionState) (r : XrResult) : Reply :=
  { state := { s with
      hardFailure := true, terminal := true, lastResult := r
      lifecycle := if r = XrResult.instanceLost then .instanceLost
        else if r = XrResult.sessionLost then .sessionLost else .failed }
    log := [.failed r]
    result := r }

/-- The token of the frame that is open, or would be opened last. -/
def token (s : SessionState) : Token :=
  ⟨s.owner, s.generation, s.sequence⟩

/-- The info that `finish` hands to the runtime: timing and blend mode are the
stored frame's, and a frame without layers carries no chain either. -/
def endInfo (s : SessionState) (supplied : XrFrameEndInfo) (layers : Bool) : XrFrameEndInfo :=
  let info := { supplied with displayTime := s.frameTime, environmentBlendMode := s.blend }
  if layers then info else { info with next := false, layerCount := 0, layers := false }

/-- `finish`: the one place that dispatches `xrEndFrame`. An attempted end is
never retried, so the frame is closed before the answer is looked at. -/
def finish (s : SessionState) (supplied : XrFrameEndInfo) (layers : Bool)
    (answer : XrResult) : Reply :=
  let closed := s.clearFrame
  let reply :=
    if answer < 0 then closed.fail answer
    else if answer ≠ XrResult.success ∧ answer ≠ XrResult.sessionLossPending then
      closed.fail XrResult.runtimeFailure
    else
      { state := closed.note answer, result := (closed.note answer).lastResult }
  reply.following [.call (.endFrame (s.endInfo supplied layers) answer)]

def reset (s : SessionState) (d : Dispatch) (instanceHandle session : Nat)
    (blend : BlendMode) : Reply :=
  if s.running ∨ s.frameOpen then
    { state := s, result := XrResult.callOrderInvalid }
  else if instanceHandle = 0 ∨ session = 0 then
    { state := s, result := XrResult.handleInvalid }
  else if ¬(d.pollEvent ∧ d.beginSession ∧ d.endSession ∧ d.waitFrame ∧ d.beginFrame ∧
      d.endFrame) then
    { state := s, result := XrResult.functionUnsupported }
  else if blend ≠ .modeOpaque ∧ blend ≠ .additive ∧ blend ≠ .alphaBlend then
    { state := s, result := XrResult.blendModeUnsupported }
  else
    { state := { s.clear with
        dispatch := d, instanceHandle := instanceHandle, session := session, blend := blend }
      log := [.rebound session]
      result := XrResult.success }

def abandonAfterOwnerDestruction (s : SessionState) : Reply :=
  { state := { s.clear with dispatch := {}, instanceHandle := 0, session := 0 }
    log := [.abandoned]
    result := XrResult.success }

def setUnhandledEventSink (s : SessionState) (sink : Bool) : Reply :=
  { state := { s with eventSink := sink }, result := XrResult.success }

/-- The two constructors: without a binding, and with one that may be refused. -/
def unbound (owner : UInt64) : SessionState := { owner := owner }

def bound (owner : UInt64) (d : Dispatch) (instanceHandle session : Nat)
    (blend : BlendMode) : Reply :=
  let reply := (unbound owner).reset d instanceHandle session blend
  if reply.result < 0 then (reply.state.fail reply.result).following reply.log else reply

def unhandled (s : SessionState) (event : XrEvent) : List Entry :=
  if s.eventSink then [.unhandled event] else []

/-- The loop of `pollEvents`, with `budget` rounds left and `i` answers used. -/
def pollLoop (s : SessionState) (answers : Nat → PollAnswer) (i : Nat) : Nat → Reply
  | 0 => { state := s, result := s.lastResult }
  | budget + 1 =>
    let answer := answers i
    let polled : List Entry := [.call (.pollEvent answer)]
    if answer.result = XrResult.eventUnavailable then
      { state := s, log := polled, result := s.lastResult }
    else if answer.result ≠ XrResult.success then
      (s.fail (if answer.result < 0 then answer.result else XrResult.runtimeFailure)).following
        polled
    else
      match answer.event with
      | .instanceLossPending =>
        { state := { s with terminal := true, lifecycle := .instanceLossPending }
          log := polled, result := s.lastResult }
      | .other type =>
        (pollLoop s answers (i + 1) budget).following (polled ++ s.unhandled (.other type))
      | .sessionStateChanged session changed =>
        if session ≠ s.session then
          (pollLoop s answers (i + 1) budget).following
            (polled ++ s.unhandled (.sessionStateChanged session changed))
        else
          let s := { s with state := changed }
          match changed with
          | .idle =>
            (pollLoop { s with lifecycle := .idle } answers (i + 1) budget).following polled
          | .synchronized =>
            (pollLoop { s with lifecycle := .synchronized } answers (i + 1) budget).following polled
          | .visible =>
            (pollLoop { s with lifecycle := .visible } answers (i + 1) budget).following polled
          | .focused =>
            (pollLoop { s with lifecycle := .focused } answers (i + 1) budget).following polled
          | .ready =>
            { state := { s with lifecycle := .ready }, log := polled, result := s.lastResult }
          | .stopping =>
            { state := { s with lifecycle := .stopping }, log := polled, result := s.lastResult }
          | .exiting =>
            { state := { s with terminal := true, lifecycle := .exiting }
              log := polled, result := s.lastResult }
          | .lossPending =>
            { state := s.note XrResult.sessionLossPending, log := polled
              result := (s.note XrResult.sessionLossPending).lastResult }
          | .unknown => (s.fail XrResult.runtimeFailure).following polled
          | .other _ => (s.fail XrResult.runtimeFailure).following polled

def pollEvents (s : SessionState) (budget : Nat) (answers : Nat → PollAnswer) : Reply :=
  if s.terminal then
    { state := s, result := s.lastResult }
  else if s.instanceHandle = 0 ∨ s.session = 0 then
    s.fail XrResult.handleInvalid
  else if ¬s.dispatch.pollEvent then
    s.fail XrResult.functionUnsupported
  -- The actionable STOPPING event is left alone until the caller ends the session.
  else if s.state = .stopping ∧ s.running then
    { state := s, result := s.lastResult }
  else
    s.pollLoop answers 0 (min budget kMaxEvents)

def startIfReady (s : SessionState) (answer : XrResult) : Reply :=
  if s.terminal then
    { state := s
      result := if s.hardFailure then s.lastResult else XrResult.callOrderInvalid }
  else if s.state ≠ .ready ∨ s.running then
    { state := s, result := XrResult.callOrderInvalid }
  else if answer < 0 then
    (s.fail answer).following [.call (.beginSession answer)]
  else if answer ≠ XrResult.success ∧ answer ≠ XrResult.sessionLossPending then
    (s.fail XrResult.runtimeFailure).following [.call (.beginSession answer)]
  else
    let s := ({ s with running := true, generation := s.generation + 1, sequence := 0 }).clearFrame
    { state := s.note answer, log := [.call (.beginSession answer)]
      result := (s.note answer).lastResult }

/-- The precondition that `waitAndBegin`, `beginWaited` and `openDeferred` share. -/
def mayOpen (s : SessionState) : Prop :=
  ¬s.terminal ∧ ¬s.frameOpen ∧ s.running ∧ s.state ≠ .stopping ∧ s.state ≠ .idle

instance (s : SessionState) : Decidable s.mayOpen :=
  inferInstanceAs (Decidable (_ ∧ _))

def openBegun (s : SessionState) (fs : XrFrameState) : SessionState :=
  { s with
    frameOpen := true, frameTime := fs.predictedDisplayTime
    frameShouldRender := fs.shouldRender == 1, sequence := s.sequence + 1 }

/-- `beginFromWait`: a successful wait owns a begin obligation even when loss
is pending. -/
def beginFromWait (s : SessionState) (waited : XrResult) (fs : XrFrameState)
    (answer : XrResult) : Reply :=
  if waited < 0 then
    { s.fail waited with frame := some { status := .failed } }
  else if waited ≠ XrResult.success ∧ waited ≠ XrResult.sessionLossPending then
    { s.fail XrResult.runtimeFailure with frame := some {} }
  else
    let s := s.note waited
    let begun : List Entry := [.call (.beginFrame answer)]
    if answer < 0 then
      { (s.fail answer).following begun with frame := some { status := .failed } }
    else if answer ≠ XrResult.success ∧ answer ≠ XrResult.frameDiscarded ∧
        answer ≠ XrResult.sessionLossPending then
      { (s.fail XrResult.runtimeFailure).following begun with frame := some {} }
    else
      let s := (s.note answer).openBegun fs
      let shouldRender := s.frameShouldRender && !s.terminal
      let discarded := answer == XrResult.frameDiscarded
      let reply : Reply :=
        { state := s
          log := [.opened s.token false]
          result := s.lastResult
          frame := some {
            predictedDisplayTime := fs.predictedDisplayTime
            predictedDisplayPeriod := fs.predictedDisplayPeriod
            shouldRender := shouldRender
            discarded := discarded
            status := if s.terminal then .sessionLossPending
              else if discarded then .discarded
              else if shouldRender then .opened else .noRender
            token := s.token } }
      reply.following begun

def waitAndBegin (s : SessionState) (waited : XrResult) (fs : XrFrameState)
    (answer : XrResult) : Reply :=
  if s.hardFailure then
    { state := s, result := s.lastResult }
  else if ¬s.mayOpen then
    { state := s, result := XrResult.callOrderInvalid }
  else
    (s.beginFromWait waited fs answer).following [.call (.waitFrame waited)]

def beginWaited (s : SessionState) (waited : XrResult) (fs : XrFrameState)
    (answer : XrResult) : Reply :=
  if s.hardFailure then
    { state := s, result := s.lastResult }
  else if ¬s.mayOpen then
    { state := s, result := XrResult.callOrderInvalid }
  else
    s.beginFromWait waited fs answer

/-- `openDeferred`: a frame handed to the game before its `xrBeginFrame`. -/
def openDeferred (s : SessionState) (predictedTime period : Int) : Reply :=
  if s.hardFailure then
    { state := s, result := s.lastResult }
  else if ¬s.mayOpen then
    { state := s, result := XrResult.callOrderInvalid }
  else
    let s := { s with
      frameOpen := true, deferred := true, frameTime := predictedTime
      frameShouldRender := true, sequence := s.sequence + 1 }
    { state := s
      log := [.opened s.token true]
      result := s.lastResult
      frame := some {
        predictedDisplayTime := predictedTime
        predictedDisplayPeriod := period
        shouldRender := !s.terminal
        status := if s.terminal then .sessionLossPending else .opened
        token := s.token } }

/-- `beginDeferred`: the real begin of a frame that `openDeferred` handed out. -/
def beginDeferred (s : SessionState) (waited : XrResult) (fs : XrFrameState)
    (answer : XrResult) : Reply :=
  if s.hardFailure then
    { state := s, result := s.lastResult }
  else if ¬s.frameOpen ∨ ¬s.deferred then
    { state := s, result := XrResult.callOrderInvalid }
  else
    let s := { s with deferred := false }
    if waited < 0 then
      s.clearFrame.fail waited
    else if waited ≠ XrResult.success ∧ waited ≠ XrResult.sessionLossPending then
      s.clearFrame.fail XrResult.runtimeFailure
    else
      let s := s.note waited
      let begun : List Entry := [.call (.beginFrame answer)]
      if answer < 0 then
        (s.clearFrame.fail answer).following begun
      else if answer ≠ XrResult.success ∧ answer ≠ XrResult.frameDiscarded ∧
          answer ≠ XrResult.sessionLossPending then
        (s.clearFrame.fail XrResult.runtimeFailure).following begun
      else
        let s := s.note answer
        { state := { s with
            frameTime := fs.predictedDisplayTime, frameShouldRender := fs.shouldRender == 1 }
          log := begun
          result := s.lastResult }

def endFrame (s : SessionState) (frame : Frame) (supplied : XrFrameEndInfo)
    (ready : RenderReady) (answer : XrResult) : Reply :=
  if s.hardFailure then
    { state := s, result := s.lastResult }
  else if ¬s.frameOpen ∨ frame.token.sequence ≠ s.sequence ∨
      frame.token.generation ≠ s.generation ∨ frame.token.owner ≠ s.owner then
    { state := s, result := XrResult.callOrderInvalid }
  else if s.deferred then
    { state := s, result := XrResult.callOrderInvalid }
  else
    let layers := s.frameShouldRender && !s.terminal && s.state != .stopping &&
      ready.poseValid && ready.renderReady
    if layers ∧ supplied.layerCount ≠ 0 ∧ ¬supplied.layers then
      { state := s, result := XrResult.validationFailure }
    else
      let reply := s.finish supplied layers answer
      { reply with frame := some { frame with
          shouldRender := false
          status := if reply.result < 0 then .failed
            else if reply.state.terminal then .sessionLossPending
            else if layers ∧ supplied.layerCount ≠ 0 then .ended else .noRender } }

/-- The last half of `stop`: the session is ended once no frame is open. -/
def endSession (s : SessionState) (answer : XrResult) : Reply :=
  let ended : List Entry := [.call (.endSession answer)]
  if answer < 0 then (s.fail answer).following ended
  else if answer ≠ XrResult.success ∧ answer ≠ XrResult.sessionLossPending then
    (s.fail XrResult.runtimeFailure).following ended
  else
    let s := ({ s with running := false }).clearFrame
    let s := if s.terminal then s else { s with lifecycle := .ended }
    { state := s.note answer, log := ended, result := (s.note answer).lastResult }

def stop (s : SessionState) (frameAnswer sessionAnswer : XrResult) : Reply :=
  if s.hardFailure then
    { state := s, result := s.lastResult }
  else if s.state ≠ .stopping ∨ ¬s.running then
    { state := s, result := XrResult.callOrderInvalid }
  else if s.frameOpen ∧ s.deferred then
    { state := s, result := XrResult.callOrderInvalid }
  else if s.frameOpen then
    let closed := s.finish {} false frameAnswer
    if closed.result < 0 then closed
    else (closed.state.endSession sessionAnswer).following closed.log
  else
    s.endSession sessionAnswer

end SessionState

/-- The public methods, each with the answers the runtime will give to it. -/
inductive Method where
  | reset (d : Dispatch) (instanceHandle session : Nat) (blend : BlendMode)
  | abandonAfterOwnerDestruction
  | setUnhandledEventSink (sink : Bool)
  | pollEvents (budget : Nat) (answers : Nat → PollAnswer)
  | startIfReady (answer : XrResult)
  | waitAndBegin (waited : XrResult) (fs : XrFrameState) (answer : XrResult)
  | beginWaited (waited : XrResult) (fs : XrFrameState) (answer : XrResult)
  | openDeferred (predictedTime period : Int)
  | beginDeferred (waited : XrResult) (fs : XrFrameState) (answer : XrResult)
  | endFrame (frame : Frame) (supplied : XrFrameEndInfo) (ready : RenderReady)
      (answer : XrResult)
  | stop (frameAnswer sessionAnswer : XrResult)

def SessionState.call (s : SessionState) : Method → Reply
  | .reset d instanceHandle session blend => s.reset d instanceHandle session blend
  | .abandonAfterOwnerDestruction => s.abandonAfterOwnerDestruction
  | .setUnhandledEventSink sink => s.setUnhandledEventSink sink
  | .pollEvents budget answers => s.pollEvents budget answers
  | .startIfReady answer => s.startIfReady answer
  | .waitAndBegin waited fs answer => s.waitAndBegin waited fs answer
  | .beginWaited waited fs answer => s.beginWaited waited fs answer
  | .openDeferred time period => s.openDeferred time period
  | .beginDeferred waited fs answer => s.beginDeferred waited fs answer
  | .endFrame frame supplied ready answer => s.endFrame frame supplied ready answer
  | .stop frameAnswer sessionAnswer => s.stop frameAnswer sessionAnswer

def sessionMachine : Lib.Machine SessionState Method Entry where
  perform s method := ((s.call method).state, (s.call method).log)

inductive Construction where
  | unbound
  | bound (d : Dispatch) (instanceHandle session : Nat) (blend : BlendMode)

def Construction.construct (owner : UInt64) : Construction → Reply
  | .unbound => { state := SessionState.unbound owner, result := XrResult.success }
  | .bound d instanceHandle session blend =>
      SessionState.bound owner d instanceHandle session blend

def sessionAfter (owner : UInt64) (built : Construction) (methods : List Method) : SessionState :=
  (sessionMachine.run (built.construct owner).state methods).1

def sessionLog (owner : UInt64) (built : Construction) (methods : List Method) : List Entry :=
  (built.construct owner).log ++ (sessionMachine.run (built.construct owner).state methods).2

end EdvrPatch.OpenXr
