import EdvrPatch.Lib.Binary32

/-! The cull guard of `native_cull_guard.h`. Floats are bit patterns and are compared as such; what
the guard computes with them is left free. -/
namespace EdvrPatch.Cull

open Lib

inductive NativeCullMode where
  | off | symmetric | percent
  | other (code : Nat)
  deriving DecidableEq, Repr

inductive NativeCullStage where
  | off | waitingScene | adopting | live | inert
  deriving DecidableEq, Repr

inductive NativeCullNudge where
  | none | first | same | shrink | taller | capped | started
  deriving DecidableEq, Repr

inductive NativeCullRoute where
  | none | scene | firstAsk | rebuild
  deriving DecidableEq, Repr

structure NativeCullSignature where
  horizontal : Nat := 0
  vertical : Nat := 0
  deriving DecidableEq, Repr

structure NativeCullSettings where
  mode : NativeCullMode := .off
  percent : Binary32 := 0x41000000
  horizontalFraction : Binary32 := 0x3f800000
  verticalFraction : Binary32 := 0x3f800000
  signatureCount : Nat := 0
  signatures : Fin 8 → NativeCullSignature := fun _ => {}
  trimOuterDeg : Binary32 := 0
  trimNasalDeg : Binary32 := 0
  trimVerticalDeg : Binary32 := 0
  channel : Nat := 0

structure NativeCullFrustum where
  left : Binary32 := 0
  right : Binary32 := 0
  down : Binary32 := 0
  up : Binary32 := 0
  deriving DecidableEq, Repr

structure NativeCullDimensions where
  width : Nat := 0
  height : Nat := 0
  deriving DecidableEq, Repr

/-- The default is the whole image: left and top at zero, right and bottom at one. -/
structure NativeCullBounds where
  left : Binary32 := 0
  top : Binary32 := 0
  right : Binary32 := 0x3f800000
  bottom : Binary32 := 0x3f800000
  deriving DecidableEq, Repr

@[ext]
structure Eyes (α : Type) where
  left : α
  right : α
  deriving DecidableEq, Repr

namespace Eyes

variable {α β : Type}

def map (f : α → β) (eyes : Eyes α) : Eyes β := ⟨f eyes.left, f eyes.right⟩

def get? (eyes : Eyes α) : Nat → Option α
  | 0 => some eyes.left
  | 1 => some eyes.right
  | _ => none

def set (eyes : Eyes α) (eye : Nat) (value : α) : Eyes α :=
  match eye with
  | 0 => { eyes with left := value }
  | 1 => { eyes with right := value }
  | _ => eyes

theorem get?_set (eyes : Eyes α) (eye i : Nat) (value : α) :
    (eyes.set eye value).get? i =
      if i = eye then (eyes.get? eye).map fun _ => value else eyes.get? i := by
  match eye, i with
  | 0, 0 | 0, 1 | 1, 0 | 1, 1 => rfl
  | 0, i + 2 | 1, i + 2 => simp [get?]
  | eye + 2, i =>
    split
    · rename_i here
      rw [here]
      rfl
    · rfl

end Eyes

def kNativeCullAdoptGraceFrames : Nat := 270
def kNativeCullNudgePx : Nat := 2
def kNativeCullNudgeMaxPx : Nat := 40

structure Widened where
  target : Eyes NativeCullFrustum
  lied : Eyes NativeCullFrustum
  factorW : Eyes Binary32
  factorH : Eyes Binary32
  maxFactorW : Binary32
  maxFactorH : Binary32

/-- The float arithmetic of the guard. `recommendedDim v f` is
`roundRecommendedDim(float(v) * f)` and `canonicalDim v f` is
`roundDim(float(v) / f)`; `askMoved ask was` asks whether `askRatio` is off one by
more than half a percent, and `reached` is taken at that same ratio. -/
structure CullMath where
  computeWidened : NativeCullSettings → Eyes NativeCullFrustum → Eyes NativeCullDimensions →
    Option Widened
  recommendedDim : Nat → Binary32 → Nat
  canonicalDim : Nat → Binary32 → Nat
  askMoved : (ask was : Nat) → Bool
  reached : (submitted baseline ask was : Nat) → Bool
  inside : NativeCullFrustum → NativeCullFrustum → NativeCullBounds

def gameFacingDimension (value : Nat) : Nat :=
  if value = 0 ∨ 16384 < value then 0 else (value + 1) / 2 * 2

def gameFacingDimensions (v : NativeCullDimensions) : NativeCullDimensions :=
  ⟨gameFacingDimension v.width, gameFacingDimension v.height⟩

namespace NativeCullSettings

open Binary32

def trims (s : NativeCullSettings) : List Binary32 :=
  [s.trimOuterDeg, s.trimNasalDeg, s.trimVerticalDeg]

def anyTrim (s : NativeCullSettings) : Bool := s.trims.any (less 0 ·)

def widens (s : NativeCullSettings) : Bool :=
  match s.mode with
  | .percent => less 0 s.percent
  | .symmetric => less 0 s.horizontalFraction || less 0 s.verticalFraction
  | _ => false

def within (limit x : Binary32) : Bool := isfinite x && !less x 0 && !less limit x

def validSettings (s : NativeCullSettings) : Bool :=
  s.trims.all (within 0x41f00000) && s.channel ≤ 2 &&
    match s.mode with
    | .off => true
    | .other _ => false
    | _ =>
      within 0x42480000 s.percent && within 0x3f800000 s.horizontalFraction &&
        within 0x3f800000 s.verticalFraction && s.signatureCount ≤ 8 &&
        decide (∀ i : Fin 8, i < s.signatureCount →
          (s.signatures i).horizontal ≠ 0 ∧ (s.signatures i).vertical ≠ 0)

def sameSettings (a b : NativeCullSettings) : Bool :=
  equal a.trimOuterDeg b.trimOuterDeg && equal a.trimNasalDeg b.trimNasalDeg &&
    equal a.trimVerticalDeg b.trimVerticalDeg && a.channel == b.channel && a.mode == b.mode &&
    equal a.percent b.percent && equal a.horizontalFraction b.horizontalFraction &&
    equal a.verticalFraction b.verticalFraction && a.signatureCount == b.signatureCount &&
    decide (∀ i : Fin 8, i < a.signatureCount → a.signatures i = b.signatures i)

end NativeCullSettings

def finiteFrustum (f : NativeCullFrustum) : Bool :=
  open Binary32 in
  isfinite f.left && isfinite f.right && isfinite f.down && isfinite f.up &&
    less f.left f.right && less f.down f.up &&
    !less f.left 0xc1a00000 && !less 0x41a00000 f.right &&
    !less f.down 0xc1a00000 && !less 0x41a00000 f.up

def validDimensions (d : NativeCullDimensions) : Bool :=
  d.width != 0 && d.height != 0 && d.width ≤ 16384 && d.height ≤ 16384

structure FrameInput where
  settings : NativeCullSettings
  trueFrusta : Eyes NativeCullFrustum
  runtimeDims : Eyes NativeCullDimensions
  sceneReady : Bool
  referenceGeneration : Nat := 0
  sizeAsked : Bool := true

namespace FrameInput

def validInputs (f : FrameInput) : Bool :=
  finiteFrustum f.trueFrusta.left && validDimensions f.runtimeDims.left &&
    finiteFrustum f.trueFrusta.right && validDimensions f.runtimeDims.right

/-- The guard has something to do: valid inputs, and a mode or a trim. -/
def usable (f : FrameInput) : Bool :=
  f.settings.validSettings && f.validInputs && (f.settings.mode != .off || f.settings.anyTrim)

end FrameInput

structure NativeCullGuard where
  settings : NativeCullSettings := {}
  trueFrusta : Eyes NativeCullFrustum := ⟨{}, {}⟩
  target : Eyes NativeCullFrustum := ⟨{}, {}⟩
  lied : Eyes NativeCullFrustum := ⟨{}, {}⟩
  runtime : Eyes NativeCullDimensions := ⟨{}, {}⟩
  baseline : Eyes NativeCullDimensions := ⟨{}, {}⟩
  submitted : Eyes NativeCullDimensions := ⟨{}, {}⟩
  adopted : Eyes NativeCullDimensions := ⟨{}, {}⟩
  baselineAsk : Eyes NativeCullDimensions := ⟨{}, {}⟩
  pendingAsk : Eyes NativeCullDimensions := ⟨{}, {}⟩
  told : Eyes NativeCullDimensions := ⟨{}, {}⟩
  trueTold : Eyes NativeCullDimensions := ⟨{}, {}⟩
  adoptingFrames : Nat := 0
  floor : Nat := 0
  floorAsk : Nat := 0
  nudgeHeight : Nat := 0
  nudgeFloor : Nat := 0
  nudge : NativeCullNudge := .none
  factorW : Eyes Binary32 := ⟨0x3f800000, 0x3f800000⟩
  factorH : Eyes Binary32 := ⟨0x3f800000, 0x3f800000⟩
  maxFactorW : Binary32 := 0x3f800000
  maxFactorH : Binary32 := 0x3f800000
  referenceGeneration : Nat := 0
  submittedMask : Eyes Bool := ⟨false, false⟩
  stage : NativeCullStage := .off
  route : NativeCullRoute := .none
  baselineReady : Bool := false
  submittedReady : Bool := false
  adoptedReady : Bool := false
  forcedInert : Bool := false
  pendingStandDown : Bool := false
  changed : Bool := false

namespace NativeCullGuard

variable (math : CullMath)

/-- The stages in which the game is told a size of the guard's own. -/
def asking (g : NativeCullGuard) : Bool := g.stage == .adopting || g.stage == .live

def trueRecommended (g : NativeCullGuard) : Eyes NativeCullDimensions :=
  g.runtime.map fun d =>
    if g.asking then ⟨math.recommendedDim d.width g.maxFactorW, math.recommendedDim d.height g.maxFactorH⟩
    else gameFacingDimensions d

def recommended (g : NativeCullGuard) : Eyes NativeCullDimensions :=
  (g.trueRecommended math).map fun d =>
    if g.nudgeHeight ≠ 0 ∧ g.nudgeHeight < d.height ∧ g.asking then
      { d with height := g.nudgeHeight }
    else d

def runtimeFrustum (g : NativeCullGuard) : Eyes NativeCullFrustum := g.trueFrusta

def gameFrustumRaw (g : NativeCullGuard) : Eyes NativeCullFrustum :=
  if g.stage ≠ .live then g.trueFrusta
  else if g.settings.channel = 2 then g.target else g.lied

def gameFrustumMatrix (g : NativeCullGuard) : Eyes NativeCullFrustum :=
  if g.stage ≠ .live then g.trueFrusta
  else if g.settings.channel = 1 then g.target else g.lied

def insideEach (inner outer : Eyes NativeCullFrustum) : Eyes NativeCullBounds :=
  ⟨math.inside inner.left outer.left, math.inside inner.right outer.right⟩

def cropBounds (g : NativeCullGuard) : Eyes NativeCullBounds :=
  if g.stage ≠ .live then ⟨{}, {}⟩
  else insideEach math g.target (if g.settings.channel = 1 then g.target else g.lied)

def placementBounds (g : NativeCullGuard) : Eyes NativeCullBounds :=
  if g.stage ≠ .live then ⟨{}, {}⟩ else insideEach math g.target g.trueFrusta

def contentFrustum (g : NativeCullGuard) : Eyes NativeCullFrustum :=
  if g.stage = .live then g.target else g.trueFrusta

def canonical (g : NativeCullGuard) : Eyes NativeCullDimensions :=
  if g.stage ≠ .live ∨ ¬g.adoptedReady then ⟨{}, {}⟩
  else
    ⟨⟨math.canonicalDim g.adopted.left.width g.factorW.left,
        math.canonicalDim g.adopted.left.height g.factorH.left⟩,
      ⟨math.canonicalDim g.adopted.right.width g.factorW.right,
        math.canonicalDim g.adopted.right.height g.factorH.right⟩⟩

def treatedFor (g : NativeCullGuard) : Eyes NativeCullDimensions :=
  let ask := if g.baselineReady then g.baselineAsk else g.pendingAsk
  let pick (ask told : NativeCullDimensions) :=
    if g.stage = .adopting ∧ ask.width ≠ 0 ∧ ask.height ≠ 0 then ask else told
  ⟨pick ask.left (g.recommended math).left, pick ask.right (g.recommended math).right⟩

def resetAdoption (g : NativeCullGuard) (keepBaseline : Bool) : NativeCullGuard :=
  { g with
    baselineReady := keepBaseline && g.baselineReady
    submittedReady := false, adoptedReady := false, submittedMask := ⟨false, false⟩
    adoptingFrames := 0 }

/-- Every exit of `beginFrame` records what the game is told from here on. -/
def finish (g : NativeCullGuard) : NativeCullGuard :=
  let told := g.recommended math
  let trueTold := g.trueRecommended math
  let lower : Bool := g.asking && told.left.height != 0 &&
    (g.floor == 0 || told.left.height < g.floor)
  { g with
    told := told, trueTold := trueTold
    floor := if lower then told.left.height else g.floor
    floorAsk := if lower then trueTold.left.height else g.floorAsk }

def turnOff (g : NativeCullGuard) (f : FrameInput) : NativeCullGuard :=
  let noted := { g with
    settings := f.settings, referenceGeneration := f.referenceGeneration
    trueFrusta := if f.validInputs then f.trueFrusta else g.trueFrusta
    target := if f.validInputs then f.trueFrusta else g.target
    runtime := if f.validInputs then f.runtimeDims else g.runtime
    changed := g.changed || g.stage != NativeCullStage.off }
  { noted.resetAdoption false with
    nudgeHeight := 0, maxFactorW := 0x3f800000, maxFactorH := 0x3f800000
    forcedInert := false, stage := .off, route := .none }

def sameGeometry (g : NativeCullGuard) (f : FrameInput) : Bool :=
  f.trueFrusta == g.trueFrusta && f.runtimeDims == g.runtime

/-- A change of settings or geometry starts over. A rebuild in flight keeps its
baseline. -/
def rearm (g : NativeCullGuard) (f : FrameInput) : NativeCullGuard :=
  let noted := { g with
    settings := f.settings, referenceGeneration := f.referenceGeneration
    trueFrusta := f.trueFrusta, target := f.trueFrusta, runtime := f.runtimeDims }
  { noted.resetAdoption (g.stage == .adopting && g.baselineReady) with
    stage := .off, forcedInert := false, route := .none, changed := true }

def takeSettings (g : NativeCullGuard) (f : FrameInput) : NativeCullGuard :=
  if !f.settings.sameSettings g.settings || !g.sameGeometry f then g.rearm f
  else { g with settings := f.settings, referenceGeneration := f.referenceGeneration }

def takeStandDown (g : NativeCullGuard) : NativeCullGuard :=
  { g.resetAdoption false with
    stage := .inert, forcedInert := true, route := .none, changed := true }

def goLive (g : NativeCullGuard) : NativeCullGuard :=
  { g with adopted := g.submitted, adoptedReady := true, stage := .live, changed := true, floor := 0 }

def eyeChanged (submitted baseline : NativeCullDimensions) : Bool :=
  submitted.width != baseline.width || submitted.height != baseline.height

def eyePromotes (ask was submitted baseline : NativeCullDimensions) : Bool :=
  (!(math.askMoved ask.width was.width || math.askMoved ask.height was.height) ||
      eyeChanged submitted baseline) &&
    math.reached submitted.width baseline.width ask.width was.width &&
    math.reached submitted.height baseline.height ask.height was.height

def promotes (g : NativeCullGuard) : Bool :=
  let ask := g.recommended math
  let promote := eyePromotes math ask.left g.baselineAsk.left g.submitted.left g.baseline.left &&
    eyePromotes math ask.right g.baselineAsk.right g.submitted.right g.baseline.right
  let moved := eyeChanged g.submitted.left g.baseline.left ||
    eyeChanged g.submitted.right g.baseline.right
  promote || (moved && kNativeCullAdoptGraceFrames < g.adoptingFrames)

def judge (g : NativeCullGuard) : NativeCullGuard :=
  if g.asking then
    let g := if g.stage = .adopting then { g with adoptingFrames := g.adoptingFrames + 1 } else g
    let g := if g.stage = .adopting ∧ g.route = .firstAsk ∧ g.submittedReady then g.goLive else g
    let g := if g.stage = .adopting ∧ g.baselineReady ∧ g.submittedReady ∧ g.promotes math then
      g.goLive else g
    { g with submittedReady := false, submittedMask := ⟨false, false⟩ }
  else g

def startNudge (g : NativeCullGuard) : NativeCullGuard :=
  let g := { g with nudgeHeight := 0, nudgeFloor := g.floor }
  let want := (g.trueRecommended math).left
  let before := g.trueTold.left
  let dip := if kNativeCullNudgePx < g.floor then g.floor - kNativeCullNudgePx else 0
  if g.floor = 0 ∨ want.height = 0 ∨ before.height = 0 then { g with nudge := .first }
  else if want = before then { g with nudge := .same }
  else if want.height < g.floor then { g with nudge := .shrink }
  else if g.floorAsk < want.height then { g with nudge := .taller }
  else if dip < 16 ∨ kNativeCullNudgeMaxPx < want.height - dip then { g with nudge := .capped }
  else { g with nudgeHeight := dip, nudge := .started }

def trimAlone (g : NativeCullGuard) : Bool := g.settings.anyTrim && !g.settings.widens

/-- The entry into an adoption, once the widened frustum is there. -/
def startAdopting (g : NativeCullGuard) (w : Widened) (sizeAsked : Bool) : NativeCullGuard :=
  let g := { g with
    target := w.target, lied := w.lied, factorW := w.factorW, factorH := w.factorH
    maxFactorW := w.maxFactorW, maxFactorH := w.maxFactorH
    stage := .adopting, changed := true
    submittedReady := false, submittedMask := ⟨false, false⟩, adoptingFrames := 0
    route := if !g.trimAlone then .scene
      else if !sizeAsked && !g.baselineReady then .firstAsk else .rebuild }
  let fresh (told runtime : NativeCullDimensions) :=
    if told.width ≠ 0 ∧ told.height ≠ 0 then told else gameFacingDimensions runtime
  let g := if g.route = .firstAsk then { g with floor := 0 }
    else if ¬g.baselineReady then
      { g with pendingAsk := ⟨fresh g.told.left g.runtime.left, fresh g.told.right g.runtime.right⟩ }
    else g
  let g := g.startNudge math
  if g.route = .firstAsk then { g with pendingAsk := g.recommended math } else g

/-- Outside an adoption: wait for the scene, stand inert, or start adopting. -/
def adopt (g : NativeCullGuard) (f : FrameInput) : NativeCullGuard :=
  if !g.trimAlone && !f.sceneReady then
    { g with stage := .waitingScene, nudgeHeight := 0, route := .scene }
  else
    match math.computeWidened g.settings g.trueFrusta g.runtime with
    | none => { g with stage := .inert, forcedInert := true, route := .none, changed := true }
    | some w => g.startAdopting math w f.sizeAsked

def forget (g : NativeCullGuard) : NativeCullGuard :=
  { g with changed := false, nudge := .none, pendingStandDown := false }

def beginFrame (g : NativeCullGuard) (f : FrameInput) : NativeCullGuard :=
  if !f.usable then (g.forget.turnOff f).finish math
  else
    let taken := g.forget.takeSettings f
    if g.pendingStandDown then taken.takeStandDown.finish math
    else
      let judged := taken.judge math
      if (judged.stage = .inert ∧ judged.forcedInert) ∨ judged.asking then judged.finish math
      else (judged.adopt math f).finish math

def plausibleSize (width height : Nat) : Bool :=
  width != 0 && height != 0 && width ≤ 16384 && height ≤ 16384

def noteSubmittedSize (g : NativeCullGuard) (eye width height : Nat) : NativeCullGuard :=
  match g.submittedMask.get? eye with
  | none => g
  | some noted =>
    if g.stage ≠ .adopting ∨ ¬plausibleSize width height ∨ noted then g
    else
      let g := { g with
        submitted := g.submitted.set eye ⟨width, height⟩
        submittedMask := g.submittedMask.set eye true }
      if ¬(g.submittedMask.left ∧ g.submittedMask.right) then g
      else if g.route = .firstAsk then { g with submittedReady := true }
      else if ¬g.baselineReady then
        { g with
          baseline := g.submitted, baselineAsk := g.pendingAsk
          baselineReady := true, submittedReady := false }
      else { g with submittedReady := true }

def standDown (g : NativeCullGuard) : NativeCullGuard := { g with pendingStandDown := true }

end NativeCullGuard

inductive CullCall where
  | beginFrame (f : FrameInput)
  | noteSubmittedSize (eye width height : Nat)
  | standDown

def NativeCullGuard.step (math : CullMath) (g : NativeCullGuard) : CullCall → NativeCullGuard
  | .beginFrame f => g.beginFrame math f
  | .noteSubmittedSize eye width height => g.noteSubmittedSize eye width height
  | .standDown => g.standDown

def guardAfter (math : CullMath) (calls : List CullCall) : NativeCullGuard :=
  calls.foldl (NativeCullGuard.step math) {}

end EdvrPatch.Cull
