import EdvrPatch.Gpu.TokenRace

/-! The controller of `gpu_frame_timing.cpp` on the thread that owns the context. It drives the
instrument of `SpanState`, whose driver is free, and what is seen is recorded: sequences that are
armed, frames that are tried, eyes that are taken, Presents and completions. -/
namespace EdvrPatch.Gpu

inductive FrameEvent where
  | armed (sequence : Nat)
  | presented
  | tried (sequence : Nat)
  | begun (sequence eye : Nat)
  | ended (sequence eye : Nat)
  | completed (result : GpuSpanResult)
  deriving DecidableEq, Repr

structure FrameController where
  ring : GpuSpanState
  enabled : Bool := false
  seenToken : Nat := 0
  activeSequence : Nat := 0
  startedAt : Nat := 0
  sourceFrame : Nat := 1
  begun : Nat := 0
  ended : Nat := 0
  commandBudget : Nat := 0
  segmentOpen : Bool := false
  segmentAdmitted : Bool := false
  applicationMode : Bool := false
  activeEye : Int := -1
  token : Nat := 0
  nextSequence : Nat := 0
  poisoned : Nat := 0
  applicationSequence : Nat := 0
  log : List FrameEvent := []

def castEye (eye : Nat) : Int := (BitVec.ofNat 32 eye).toInt

def eyeBit (eye : Nat) : Nat := 2 ^ (eye % 32)

namespace FrameController

variable (answers : Nat → SpanAnswer)

def record (c : FrameController) (e : FrameEvent) : FrameController :=
  { c with log := c.log ++ [e] }

def poison (c : FrameController) (sequence : Nat) : FrameController :=
  { c with poisoned := max c.poisoned sequence }

def publish (c : FrameController) (result : GpuSpanResult) : FrameController :=
  c.record (.completed (clipped c.poisoned result))

def immediate (c : FrameController) (reason : GpuSpanReason) (sequence now : Nat) : FrameController :=
  c.publish
    { reason := reason, sequence := sequence, sourceFrame := c.sourceFrame, completedAtMs := now
      source := if c.applicationSequence = sequence then .applicationRender else .renderToSubmit }

def poll (c : FrameController) (now : Nat) : FrameController :=
  match c.ring.poll answers now c.ring.owner with
  | (results, ring) => (results.map Prod.snd).foldl publish { c with ring := ring }

def invalidate (c : FrameController) (now : Nat) : FrameController :=
  { c with
    ring := if c.activeSequence = 0 then c.ring
      else (c.ring.invalidateFrame answers now c.ring.owner).2
    activeSequence := 0, activeEye := -1, begun := 0, ended := 0
    segmentOpen := false, segmentAdmitted := false }

/-- The frame is given up, with whatever else is asked for its sequence. -/
def reject (c : FrameController) (sequence now : Nat) : FrameController :=
  (c.invalidate answers now).poison sequence

def sync (c : FrameController) (now : Nat) : FrameController :=
  let c := if c.seenToken ≠ c.token ∨ (c.activeSequence ≠ 0 ∧ (c.activeSequence ≤ c.poisoned ∨
      kMaxAgeMs < (2 ^ 64 + now - c.startedAt) % 2 ^ 64)) then c.invalidate answers now else c
  c.poll answers now

/-- The admitted segment is opened by the first command after it. -/
def resume (c : FrameController) (sequence now : Nat) : Bool × FrameController :=
  match c.ring.resumeApplicationSegment answers now c.ring.owner with
  | (reason, ring) =>
    let c := { c with ring := ring }
    if reason = .valid then (true, { c with segmentOpen := true, segmentAdmitted := false })
    else (false, c.reject answers sequence now)

/-- What a command does before it begins a frame, and the sequence it begins one for. -/
def prepareCommand (c : FrameController) (now : Nat) : Option Nat × FrameController :=
  let sequence := c.token / 2
  if ¬c.enabled then (none, c)
  else
    let seen := c.seenToken = c.token
    match (if seen ∧ c.activeSequence ≠ 0 ∧ c.segmentAdmitted ∧ ¬c.segmentOpen then
        c.resume answers sequence now else (true, c)) with
    | (false, c) => (none, c)
    | (true, c) =>
      if seen ∧ c.activeSequence = 0 ∧ ¬c.segmentAdmitted then (none, c)
      else
        let c := if seen ∧ c.activeSequence ≠ 0 then
          { c with commandBudget := (c.commandBudget + 1) % 2 ^ 32 } else c
        if seen ∧ c.activeSequence ≠ 0 ∧ c.commandBudget % 1024 ≠ 0 then (none, c)
        else
          let c := c.sync answers now
          if c.seenToken = c.token ∧ ¬c.segmentAdmitted then (none, c)
          else if c.applicationSequence = sequence ∧ ¬c.segmentAdmitted then (none, c)
          else
            let c := { c with seenToken := c.token }
            if c.token % 2 = 0 ∨ sequence = 0 ∨ sequence ≤ c.poisoned then (none, c)
            else (some sequence, c)

def beginSequence (c : FrameController) (sequence now : Nat) : FrameController :=
  let application := c.applicationSequence = sequence
  let c := { c.record (.tried sequence) with applicationMode := application }
  match (if application then
      c.ring.beginApplicationFrame answers sequence c.sourceFrame now c.ring.owner
    else c.ring.beginFrame answers sequence c.sourceFrame now c.ring.owner) with
  | (reason, ring) =>
    let c := { c with ring := ring }
    if reason = .valid then
      { c with
        activeSequence := sequence, startedAt := now, begun := 0, ended := 0
        segmentOpen := true, segmentAdmitted := false }
    else c.immediate reason sequence now

def gpuFrameCommand (c : FrameController) (now : Nat) : FrameController :=
  match c.prepareCommand answers now with
  | (none, c) => c
  | (some sequence, c) => c.beginSequence answers sequence now

def gpuFramePresent (c : FrameController) (nextSourceFrame now : Nat) : FrameController :=
  let c := (c.record .presented).invalidate answers now
  { { c with seenToken := c.token }.poll answers now with sourceFrame := nextSourceFrame }

def gpuFrameConfigure (c : FrameController) (enabled : Bool) (now : Nat) : FrameController :=
  if c.enabled = enabled then c
  else
    let c := { c with enabled := enabled }.invalidate answers now
    let ring := if enabled then c.ring
      else { GpuSpanState.fresh c.ring.owner with
        asked := (c.ring.shutdown answers now c.ring.owner).2.asked }
    { c with ring := ring, seenToken := c.token }

def waitBegin (c : FrameController) : Nat × FrameController :=
  let seq := (c.nextSequence + 1) % 2 ^ 64
  let c := { c with nextSequence := seq }
  if ¬inRange seq then (0, c)
  else (seq, { c with token := if c.token / 2 < seq then seq * 2 else c.token })

def waitEnd (c : FrameController) (sequence flags : Nat) : Nat × FrameController :=
  if flags ≠ 1 ∧ flags ≠ kGpuFrameNativeWait then (0, c.poison sequence)
  else
    let c := if flags = kGpuFrameNativeWait then
      { c with applicationSequence := max c.applicationSequence sequence } else c
    if c.token = sequence * 2 then (1, { c with token := sequence * 2 + 1 }.record (.armed sequence))
    else (0, c)

def segmentResume (c : FrameController) (sequence now : Nat) : Nat × FrameController :=
  if c.applicationSequence ≠ sequence ∨ ¬c.enabled then (0, c)
  else
    let c := c.sync answers now
    if c.token ≠ sequence * 2 + 1 ∨ c.segmentOpen ∨ c.segmentAdmitted ∨
        (c.activeSequence ≠ 0 ∧ c.activeSequence ≠ sequence) ∨ c.ended = 3 ∨ sequence ≤ c.poisoned then
      (0, c)
    else
      (1, { c with
        seenToken := if c.activeSequence = 0 then c.token else c.seenToken
        segmentAdmitted := true })

/-- The segment that is open is ended, by a pause or at the end of an eye. -/
def endSegment (c : FrameController) (sequence now : Nat) (ends : Bool) : Nat × FrameController :=
  match c.ring.endApplicationSegment answers now c.ring.owner with
  | (reason, ring) =>
    let c := { c with ring := ring }
    if reason ≠ .valid then (0, c.reject answers sequence now)
    else (1, { c with segmentOpen := false, activeEye := if ends then -1 else c.activeEye })

def segmentPause (c : FrameController) (sequence now : Nat) : Nat × FrameController :=
  if c.applicationSequence ≠ sequence ∨ ¬c.enabled then (0, c)
  else
    let c := c.sync answers now
    if c.token ≠ sequence * 2 + 1 ∨ c.activeSequence ≠ sequence ∨ sequence ≤ c.poisoned then (0, c)
    else if ¬c.segmentOpen then (1, { c with segmentAdmitted := false })
    else if 0 ≤ c.activeEye then (0, c)
    else c.endSegment answers sequence now false

def segmentEnd (c : FrameController) (sequence eye now : Nat) : Nat × FrameController :=
  if c.applicationSequence ≠ sequence ∨ ¬c.enabled then (0, c)
  else
    let c := c.sync answers now
    if c.token ≠ sequence * 2 + 1 ∨ c.activeSequence ≠ sequence ∨ sequence ≤ c.poisoned then (0, c)
    else if c.activeEye ≠ castEye eye ∨ ¬c.segmentOpen then (0, c.reject answers sequence now)
    else c.endSegment answers sequence now true

/-- A submit does not start at itself and pretend that it included rendering. -/
def missed (c : FrameController) (sequence now : Nat) : FrameController :=
  ({ c with seenToken := c.token }.immediate .noOpenFrame sequence now).poison sequence

def beginSubmitEye (c : FrameController) (sequence eye now : Nat) : Nat × FrameController :=
  match c.ring.beginEye answers eye now c.ring.owner with
  | (reason, ring) =>
    let c := { c with ring := ring }
    if reason ≠ .valid then (0, c.reject answers sequence now)
    else (1, { c with activeEye := castEye eye }.record (.begun sequence eye))

def beginSubmitApplication (c : FrameController) (sequence eye now : Nat) : Nat × FrameController :=
  if c.ended &&& eyeBit eye ≠ 0 ∨ 0 ≤ c.activeEye ∨ c.begun &&& eyeBit eye ≠ 0 then
    (0, c.reject answers sequence now)
  else
    match (if c.segmentOpen then (true, c) else c.resume answers sequence now) with
    | (false, c) => (0, c)
    | (true, c) =>
      (1, { c with activeEye := castEye eye, begun := c.begun ||| eyeBit eye }.record
        (.begun sequence eye))

def submitBegin (c : FrameController) (sequence eye now : Nat) (sameDevice : Bool) :
    Nat × FrameController :=
  if ¬c.enabled then (0, c)
  else
    let c := c.sync answers now
    if c.token ≠ sequence * 2 + 1 ∨ sequence ≤ c.poisoned then (0, c)
    else if c.activeSequence = 0 then (0, c.missed sequence now)
    else if ¬sameDevice ∨ 1 < eye then (0, c.reject answers sequence now)
    else if c.applicationMode then c.beginSubmitApplication answers sequence eye now
    else c.beginSubmitEye answers sequence eye now

def endSubmitEye (c : FrameController) (sequence eye flags now : Nat) : Nat × FrameController :=
  if c.activeSequence ≠ sequence ∨ c.activeEye ≠ castEye eye ∨ flags ≠ 1 then
    (0, c.reject answers sequence now)
  else
    match c.ring.endEye answers eye now c.ring.owner with
    | (reason, ring) =>
      let c := { c with ring := ring }
      if reason ≠ .valid then (0, c.reject answers sequence now)
      else
        let c := { c with activeEye := -1, ended := c.ended ||| eyeBit eye }.record (.ended sequence eye)
        if c.ended = 3 then
          (1, { c with
            ring := (c.ring.finishFrame answers now c.ring.owner).2, activeSequence := 0, ended := 0 })
        else (1, c)

def endSubmitApplication (c : FrameController) (sequence eye flags now : Nat) : Nat × FrameController :=
  if c.activeSequence ≠ sequence ∨ c.activeEye ≠ -1 ∨ c.begun &&& eyeBit eye = 0 ∨
      c.ended &&& eyeBit eye ≠ 0 ∨ flags ≠ 1 then (0, c.reject answers sequence now)
  else
    let c := { c with ended := c.ended ||| eyeBit eye }
    if c.ended ≠ 3 then (1, c.record (.ended sequence eye))
    else if c.begun ≠ 3 then (0, c.reject answers sequence now)
    else
      match c.ring.finishApplicationFrame answers now c.ring.owner with
      | (reason, ring) =>
        let c := { c with ring := ring }
        if reason ≠ .valid then (0, c.reject answers sequence now)
        else (1, { c with activeSequence := 0, ended := 0 }.record (.ended sequence eye))

def submitEnd (c : FrameController) (sequence eye flags now : Nat) : Nat × FrameController :=
  if ¬c.enabled then (0, c)
  else
    let c := c.sync answers now
    if c.token ≠ sequence * 2 + 1 ∨ sequence ≤ c.poisoned then (0, c)
    else if c.applicationMode then c.endSubmitApplication answers sequence eye flags now
    else c.endSubmitEye answers sequence eye flags now

end FrameController

inductive GpuFrameEvent where
  | waitBegin | waitEnd | submitBegin | submitEnd | cancel | segmentResume | segmentPause | segmentEnd
  deriving DecidableEq, Repr

/-- What `gpuFrameEvent` returns, and the controller after it; `sameDevice` says whether
the texture is one of the controller's device. -/
def FrameController.gpuFrameEvent (answers : Nat → SpanAnswer) (c : FrameController)
    (event : GpuFrameEvent) (sequence eye flags now : Nat) (sameDevice : Bool) :
    Nat × FrameController :=
  if event = .waitBegin then c.waitBegin
  else if ¬inRange sequence then (0, c)
  else
    match event with
    | .waitBegin => c.waitBegin
    | .waitEnd => c.waitEnd sequence flags
    | .cancel => (1, c.poison sequence)
    | .segmentResume => c.segmentResume answers sequence now
    | .segmentPause => c.segmentPause answers sequence now
    | .segmentEnd => c.segmentEnd answers sequence eye now
    | .submitBegin => c.submitBegin answers sequence eye now sameDevice
    | .submitEnd => c.submitEnd answers sequence eye flags now

inductive FrameCall where
  | event (event : GpuFrameEvent) (sequence eye flags now : Nat) (sameDevice : Bool)
  | command (now : Nat)
  | present (nextSourceFrame now : Nat)
  | configure (enabled : Bool) (now : Nat)
  deriving DecidableEq, Repr

def FrameController.step (answers : Nat → SpanAnswer) (c : FrameController) : FrameCall → FrameController
  | .event event sequence eye flags now sameDevice =>
    (c.gpuFrameEvent answers event sequence eye flags now sameDevice).2
  | .command now => c.gpuFrameCommand answers now
  | .present nextSourceFrame now => c.gpuFramePresent answers nextSourceFrame now
  | .configure enabled now => c.gpuFrameConfigure answers enabled now

def framesAfter (answers : Nat → SpanAnswer) (owner : GpuSpanOwner) (calls : List FrameCall) :
    FrameController :=
  calls.foldl (FrameController.step answers) { ring := GpuSpanState.fresh owner }

end EdvrPatch.Gpu
