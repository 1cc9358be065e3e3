import EdvrPatch.Common.Clock

/-! The gate of `head_offset_gate.cpp`, which decides when the head pose is moved. The
clock may advance within a call: `now k` is what it says at the `k`-th place of the call
that reads it, in the order of the code. What only words a line of the log is left out. -/
namespace EdvrPatch.HeadOffset

def kNewFootSessionMs : Nat := 10000
def kFootGraceMs : Nat := 10000
def kKeylessEnterMs : Nat := 2700
def kIdleDropMs : Nat := 3300
def kPanelRunOverMs : Nat := 1150
def kSceneDraws : Nat := 50

structure Gate where
  wantsPanel : Bool := false
  gatePanelRun : Nat := 0
  gateSincePanel : Nat := 0
  gateIdleFrames : Nat := 0
  gateAwayScene : Nat := 0
  gateExternal : Bool := false
  gateEnterWindowMs : Nat := 670
  gateIntent : Bool := false
  gateHaveKey : Bool := false
  gateKeyBound : Bool := false
  gateViewIndex : Int := 0
  gateWantView : Int := 1
  gateViewCount : Int := 6
  wakeKnown : Bool := false
  wakeLast : Bool := false
  gateViewEverRead : Bool := false
  gateBridgeOn : Bool := true
  panelStoppedMs : Nat := 0
  awaySceneMs : Nat := 0
  idleMs : Nat := 0
  lastFootResetMs : Nat := 0
  liveOnFootKnown : Bool := false
  liveOnFoot : Bool := false
  liveSample : Nat := 0
  sampleAtPanelStop : Nat := 0
  liveOnFootSeenThisFoot : Bool := false
  footGraceJournal : Bool := false
  footGraceMs : Nat := 0
  gateKeylessOn : Bool := false
  gateIntentMs : Nat := 0
  gateIntentGraceMs : Nat := 2000
  gateInCamera : Bool := false
  gateCameraEnters : Nat := 0
  viewOverride : Int := -1
  panelSettled : Bool := false
  /-- The flag of the last `setExternalCameraOnFoot`. -/
  published : Bool := false

structure GateConfig where
  wantsPanel : Bool := true
  enterWindowMs : Nat := 670
  intentGraceMs : Nat := 2000
  wantView : Int := 2
  viewCount : Int := 6
  bridgeOn : Bool := true
  keylessOn : Bool := false

namespace Gate

def headOffsetGateConfigure (g : Gate) (cfg : GateConfig) : Gate :=
  { g with
    wantsPanel := cfg.wantsPanel, gateEnterWindowMs := cfg.enterWindowMs
    gateIntentGraceMs := cfg.intentGraceMs, gateWantView := cfg.wantView
    gateViewCount := cfg.viewCount, gateBridgeOn := cfg.bridgeOn, gateKeylessOn := cfg.keylessOn }

def headOffsetGateReset (g : Gate) : Gate := { gateKeyBound := g.gateKeyBound }

def headOffsetGateSetKeyBound (g : Gate) (bound : Bool) : Gate := { g with gateKeyBound := bound }

/-- Stepping out of a vehicle on a view that the cycle on foot does not have. -/
def headOffsetGateSetOnFootLive (g : Gate) (known onFoot : Bool) (sample : Nat) : Gate :=
  let steppingOut := known && onFoot && g.liveOnFootKnown && !g.liveOnFoot
  { g with
    gateViewIndex :=
      if steppingOut ∧ 0 < g.gateViewCount ∧ g.gateViewCount ≤ g.gateViewIndex then 0 else g.gateViewIndex
    liveOnFootKnown := known, liveOnFoot := onFoot, liveSample := sample
    liveOnFootSeenThisFoot := (known && onFoot) || g.liveOnFootSeenThisFoot }

def headOffsetGateSetWakeLive (g : Gate) (known inSupercruise inTunnel : Bool) : Gate :=
  if !known then { g with wakeKnown := false }
  else
    let wake := inSupercruise || inTunnel
    let changed := g.wakeKnown && wake != g.wakeLast
    { g with
      wakeKnown := true, wakeLast := wake
      gateViewIndex := if changed then 0 else g.gateViewIndex }

/-- The journal and the panel both mark a landing, and the later of them stands down. -/
def headOffsetGateNewFootSession (g : Gate) (journalSaysSo : Bool) (now : Nat → Nat) : Gate :=
  let g := if journalSaysSo then { g with footGraceJournal := true, footGraceMs := stampMs (now 0) } else g
  let g := if elapsedMs (now 1) g.lastFootResetMs kNewFootSessionMs then { g with lastFootResetMs := 0 } else g
  if g.lastFootResetMs ≠ 0 then g
  else { g with lastFootResetMs := stampMs (now 2), liveOnFootSeenThisFoot := false }

def headOffsetGateNoteEmbark (g : Gate) : Gate := { g with footGraceJournal := false }

def headOffsetGateKeyPressed (g : Gate) (now : Nat) : Gate :=
  let panelUpNow := g.gateSincePanel ≤ 2 ∧ 0 < g.gatePanelRun
  { g with
    gateHaveKey := true
    gateIntent := if panelUpNow ∧ ¬g.gateInCamera then true else !g.gateIntent
    gateIntentMs := stampMs now }

def currentRing (g : Gate) : Int :=
  let offFoot := g.liveOnFootKnown && !g.liveOnFoot
  if offFoot then 0 else g.gateViewCount

def normalizeView (g : Gate) (v : Int) : Int :=
  let n := g.currentRing
  if n ≤ 0 then (if v < 0 then 0 else v)
  else
    let v := v.tmod n
    if v < 0 then v + n else v

def headOffsetGateStepView (g : Gate) (delta : Int) : Gate :=
  { g with gateViewIndex := g.normalizeView (g.gateViewIndex + delta) }

def headOffsetGateSetView (g : Gate) (view : Int) : Gate := { g with viewOverride := view }

def leaveCamera (g : Gate) : Gate :=
  { g with gateInCamera := false, gateExternal := false, published := false }

def clearIntent (g : Gate) : Gate := { g with gateIntent := false, gateIntentMs := 0 }

def panelFrame (g : Gate) (now : Nat → Nat) : Gate :=
  let g := if elapsedMs (now 0) g.awaySceneMs kNewFootSessionMs then
    g.headOffsetGateNewFootSession false fun k => now (1 + k) else g
  let g := { g with
    gateAwayScene := 0, awaySceneMs := 0, gateSincePanel := 0, panelStoppedMs := 0, gateIdleFrames := 0
    idleMs := 0, gatePanelRun := if g.gatePanelRun < 10000 then g.gatePanelRun + 1 else g.gatePanelRun }
  if g.gateInCamera then g.leaveCamera.clearIntent
  else if g.gateIntent ∧ elapsedMs (now 4) g.gateIntentMs g.gateIntentGraceMs then g.clearIntent
  else g

/-- The panel was not drawn, and the player has not just asked to leave. -/
def countGap (g : Gate) (now : Nat → Nat) : Gate :=
  let since := (g.gateSincePanel + 1) % 2 ^ 32
  { g with
    gateSincePanel := since
    sampleAtPanelStop := if since = 1 then g.liveSample else g.sampleAtPanelStop
    panelStoppedMs := if since = 1 then stampMs (now 5) else g.panelStoppedMs }

def intentOk (g : Gate) : Bool := g.gateKeyBound && g.gateIntent

def statusFresh (g : Gate) : Bool :=
  g.liveOnFootKnown && g.liveOnFoot && decide (g.sampleAtPanelStop < g.liveSample)

def graceActive (g : Gate) (now : Nat) : Bool :=
  g.footGraceJournal && !g.liveOnFootSeenThisFoot && !elapsedMs now g.footGraceMs kFootGraceMs

def autoIntent (g : Gate) (now : Nat) : Bool :=
  g.gateKeylessOn && !g.gateKeyBound && (g.statusFresh || g.graceActive now)

def entryAsked (g : Gate) (now : Nat → Nat) : Bool :=
  let timingOk := !elapsedMs (now 7) g.panelStoppedMs g.gateEnterWindowMs ||
    !elapsedMs (now 8) g.gateIntentMs g.gateIntentGraceMs
  (g.intentOk && timingOk) || (g.autoIntent (now 6) && !elapsedMs (now 9) g.panelStoppedMs kKeylessEnterMs)

def enters (g : Gate) (eyeDraws : Nat) (now : Nat → Nat) : Bool :=
  !g.gateInCamera && g.entryAsked now && decide (8 ≤ g.gateSincePanel) && decide (kSceneDraws < eyeDraws) &&
    decide (30 < g.gatePanelRun)

def enter (g : Gate) (eyeDraws : Nat) (now : Nat → Nat) : Gate :=
  if g.enters eyeDraws now then
    { g with gateInCamera := true, gateCameraEnters := (g.gateCameraEnters + 1) % 2 ^ 32 }
  else g

def board (g : Gate) : Gate :=
  if g.gateInCamera ∧ g.liveOnFootKnown ∧ ¬g.liveOnFoot ∧ g.liveOnFootSeenThisFoot then g.leaveCamera else g

def idleOrAway (g : Gate) (eyeDraws : Nat) (now : Nat → Nat) : Gate :=
  if ¬kSceneDraws < eyeDraws then
    let idle := (g.gateIdleFrames + 1) % 2 ^ 32
    let g := { g with gateIdleFrames := idle, idleMs := if idle = 1 then stampMs (now 10) else g.idleMs }
    if elapsedMs (now 11) g.idleMs kIdleDropMs ∧ g.gateInCamera then g.leaveCamera else g
  else
    let g := { g with gateIdleFrames := 0, idleMs := 0 }
    if ¬g.gateInCamera ∧ g.gateAwayScene < 1000000 then
      { g with
        gateAwayScene := g.gateAwayScene + 1
        awaySceneMs := if g.gateAwayScene + 1 = 1 then stampMs (now 12) else g.awaySceneMs }
    else g

def dropCredit (g : Gate) (now : Nat → Nat) : Gate :=
  if elapsedMs (now 13) g.panelStoppedMs kPanelRunOverMs then { g with gatePanelRun := 0 } else g

def gapFrame (g : Gate) (eyeDraws : Nat) (now : Nat → Nat) : Gate :=
  ((((g.countGap now).enter eyeDraws now).board).idleOrAway eyeDraws now).dropCredit now

def leavesByKey (g : Gate) : Bool := g.gateInCamera && g.gateHaveKey && !g.gateIntent

/-- A read of the game's own view is believed in the camera. That something has been read
is noted before it is asked for. -/
def readView (g : Gate) : Gate :=
  let gameView := g.viewOverride
  let g := if 0 ≤ gameView then { g with gateViewEverRead := true } else g
  if 0 ≤ gameView ∧ gameView ≠ g.gateViewIndex ∧ (g.gateInCamera ∨ ¬g.gateViewEverRead) then
    { g with gateViewIndex := g.normalizeView gameView }
  else g

def viewOk (g : Gate) : Bool :=
  let gameView := g.viewOverride
  let bridging := decide (gameView < 0) && g.gateViewEverRead && g.gateBridgeOn
  let viewLost := g.gateViewEverRead && decide (gameView < 0) && !bridging
  !viewLost && (decide (g.gateWantView < 0) || decide (g.gateViewIndex = g.gateWantView))

def publish (g : Gate) : Gate :=
  let wantOffset := g.gateInCamera && g.viewOk
  { g with published := wantOffset, gateExternal := wantOffset }

def expireIntent (g : Gate) (now : Nat → Nat) : Gate :=
  if g.gateIntent ∧ ¬g.gateInCamera ∧ elapsedMs (now 14) g.gateIntentMs g.gateIntentGraceMs then g.clearIntent
  else g

end Gate

structure GateFrame where
  panelDraws : Nat
  eyeDraws : Nat
  now : Nat → Nat

def Gate.headOffsetGateFrame (g : Gate) (f : GateFrame) : Gate :=
  let g := { g with panelSettled := false }
  if ¬g.wantsPanel then (if g.gateExternal ∨ g.gateInCamera then g.headOffsetGateReset else g)
  else
    let g := { g with panelSettled := decide (0 < f.panelDraws ∧ 30 < g.gatePanelRun) }
    let g := if 0 < f.panelDraws then g.panelFrame f.now
      else if g.leavesByKey then g.leaveCamera
      else g.gapFrame f.eyeDraws f.now
    (g.readView.publish).expireIntent f.now

inductive GateCall where
  | keyPressed (now : Nat)
  | stepView (delta : Int)
  | setOnFootLive (known onFoot : Bool) (sample : Nat)
  | setWakeLive (known inSupercruise inTunnel : Bool)
  | newFootSession (journalSaysSo : Bool) (now : Nat → Nat)
  | noteEmbark
  | setView (view : Int)
  | setKeyBound (bound : Bool)
  | frame (f : GateFrame)

def Gate.step (g : Gate) : GateCall → Gate
  | .keyPressed now => g.headOffsetGateKeyPressed now
  | .stepView delta => g.headOffsetGateStepView delta
  | .setOnFootLive known onFoot sample => g.headOffsetGateSetOnFootLive known onFoot sample
  | .setWakeLive known inSupercruise inTunnel => g.headOffsetGateSetWakeLive known inSupercruise inTunnel
  | .newFootSession journalSaysSo now => g.headOffsetGateNewFootSession journalSaysSo now
  | .noteEmbark => g.headOffsetGateNoteEmbark
  | .setView view => g.headOffsetGateSetView view
  | .setKeyBound bound => g.headOffsetGateSetKeyBound bound
  | .frame f => g.headOffsetGateFrame f

def gateAfter (cfg : GateConfig) (calls : List GateCall) : Gate :=
  calls.foldl Gate.step (Gate.headOffsetGateConfigure {} cfg)

end EdvrPatch.HeadOffset
