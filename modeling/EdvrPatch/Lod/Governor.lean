import EdvrPatch.Lod.Lever

/-! The policy of the LOD governor (`lod_governor.cpp`): k, in steps of 0.05 above 1, once
a second from what the frames of that second took. The record is in the groups the source
has its fields in; those only the log reads are left out. -/
namespace EdvrPatch.Lod

open Lib Doubles

variable {D : Type} [Doubles D]

def kCoarseQuanta : Int := 5
def kSettlementRecords : Nat := 200
def kSettlementBand : Nat := 50
def kSampleWindow : Nat := 30
def kWindowMs : Nat := 1000
def kWindowMinCycles : Nat := 20
def kTriggerDivisor : Nat := 10
def kCoarseDivisor : Nat := 4
def kConsecutive : Nat := 30
def kCleanWindows : Nat := 5
def kCleanWindowsMax : Nat := 60
def kTrialMs : Nat := 10000
def kBackoffResetMs : Nat := 60000
def kKickWindows : Nat := 10
def kKickIntervalMs : Nat := 30000
def kKickTrialWindows : Nat := 5
def kKickBlockMs : Nat := 60000
def kAboardMs : Nat := 5000

inductive Work where
  | none
  | invalid
  | valid
  deriving DecidableEq, Repr

inductive WorkSource where
  | none
  | caller
  | app
  deriving DecidableEq, Repr

structure FrameSignals (D : Type) where
  records : Nat
  onFoot : Bool
  work : Work
  source : WorkSource
  expired : Bool
  workMs : D
  periodMs : D
  nowMs : Nat
  clockMs : D
  gpuValid : Bool
  gpuMs : D
  tested : Nat
  passed : Nat
  camValid : Bool
  cam : D × D × D

inductive Step where
  | none
  | up
  | down
  | reset
  | clamp
  | enter
  | foot
  | kick
  | restore
  | aboard
  deriving DecidableEq, Repr

structure Cycle (D : Type) where
  measured : Bool
  missed : Bool
  gpuBound : Bool
  unexplained : Bool
  ms : D

def Cycle.empty : Cycle D :=
  ⟨false, false, false, false, ofNat 0⟩

structure Gather (D : Type) where
  cycles : Nat
  misses : Nat
  gpuBound : Nat
  unexplained : Nat
  anyMisses : Nat
  excessSum : D

def Gather.empty : Gather D :=
  ⟨0, 0, 0, 0, 0, ofNat 0⟩

structure WindowResult (D : Type) where
  decided : Bool
  cycles : Nat
  misses : Nat
  gpuBound : Nat
  unexplained : Nat
  anyMisses : Nat
  meanExcessMs : D
  triggered : Bool
  headroom : Bool

def WindowResult.empty : WindowResult D :=
  ⟨false, 0, 0, 0, 0, 0, ofNat 0, false, false⟩

/-- A valid sample: its excess over the period, and its cycle's class. -/
structure Sample (D : Type) where
  excess : D
  miss : Bool
  gpu : Bool
  unex : Bool

structure SampleRing (D : Type) where
  ring : Ring (Sample D) kSampleWindow
  missCount : Int := 0
  gpuCount : Int := 0
  unexCount : Int := 0

namespace SampleRing

def init : SampleRing D :=
  { ring := { slots := fun _ => ⟨ofNat 0, false, false, false⟩ } }

def emptyRing (r : SampleRing D) : SampleRing D :=
  { ring := r.ring.clear }

def push (r : SampleRing D) (x : Sample D) : SampleRing D :=
  let full := r.ring.count = kSampleWindow
  let old := r.ring.slots r.ring.next
  { ring := r.ring.push x
    missCount := r.missCount - (if full ∧ old.miss then 1 else 0) + (if x.miss then 1 else 0)
    gpuCount := r.gpuCount - (if full ∧ old.gpu then 1 else 0) + (if x.gpu then 1 else 0)
    unexCount := r.unexCount - (if full ∧ old.unex then 1 else 0) + (if x.unex then 1 else 0) }

def meanExcessMs (r : SampleRing D) : D :=
  if r.ring.count = 0 then ofNat 0
  else r.ring.latest.foldl (fun sum x => sum + x.excess) (ofNat 0) / ofNat r.ring.count

end SampleRing

/-- The clock of the boundaries, and what the latest valid sample was held against. -/
structure Clocked (D : Type) where
  haveClock : Bool := false
  lastClockMs : D
  cycle : Cycle D
  periodMs : D
  holding : Bool := false

structure Windows (D : Type) where
  started : Bool := false
  windowClosed : Bool := false
  winStartMs : Nat := 0
  gather : Gather D
  lastWin : WindowResult D
  trigRun : Nat := 0
  cleanRun : Nat := 0
  ceilRun : Nat := 0
  lastTriggerMs : Nat := 0

/-- The kick, its trial and its relaxation; the working point and its trials. -/
structure Trials where
  kicked : Bool := false
  relaxing : Bool := false
  kickTrial : Bool := false
  lastKickMs : Nat := 0
  kickBlockedUntilMs : Nat := 0
  trialWindows : Nat := 0
  preKickSteps : Int := 0
  relaxTarget : Int := 0
  good : Int := -1
  lastDownMs : Nat := 0
  downWait : Nat := kCleanWindows
  restoreKick : Bool := false

structure Policy (D : Type) where
  steps : Int := 0
  maxSteps : Int := 100
  fixed : Bool := false
  inSettlement : Bool := false
  clampPending : Bool := false
  sparse : Nat := 0
  ring : SampleRing D
  clock : Clocked D
  windows : Windows D
  trials : Trials := {}
  lever : Lever D
  onFoot : Bool := false
  footSteps : Int := 0
  boardedMs : Nat := 0

/-- The floats k_max is given in. What is rounded is not negative for a float from 1 on. -/
class Floats (F : Type) extends Sub F, Mul F where
  ofNat : Nat → F
  lt : F → F → Bool
  le : F → F → Bool
  lround : F → Int
  lround_nonneg : ∀ x, le (ofNat 1) x = true → 0 ≤ lround ((x - ofNat 1) * ofNat 20)
  le_eight : le (ofNat 1) (ofNat 8) = true
  le_one : le (ofNat 1) (ofNat 1) = true

namespace Policy

def init : Policy D where
  ring := .init
  clock := { lastClockMs := ofNat 0, cycle := .empty, periodMs := ofNat 0 }
  windows := { gather := .empty, lastWin := .empty }
  lever := .init

def stepsOf {F : Type} [Floats F] (kMax : F) : Int :=
  let kMax := if Floats.le (Floats.ofNat 1) kMax then kMax else Floats.ofNat 1
  let kMax := if Floats.lt (Floats.ofNat 8) kMax then Floats.ofNat 8 else kMax
  Floats.lround ((kMax - Floats.ofNat 1) * Floats.ofNat 20)

def configure {F : Type} [Floats F] (p : Policy D) (kMax : F) : Policy D :=
  { p with maxSteps := stepsOf kMax, clampPending := p.clampPending || decide (stepsOf kMax < p.steps) }

def setFixed (p : Policy D) (fixed : Bool) : Policy D :=
  { p with fixed := fixed }

def reset (p : Policy D) : Policy D :=
  { (init : Policy D) with maxSteps := p.maxSteps, fixed := p.fixed }

def callerNow (p : Policy D) : D :=
  if kEffectMin ≤ p.ring.ring.count then p.clock.periodMs + p.ring.meanExcessMs else -ofNat 1

def restart (p : Policy D) (nowMs : Nat) : Policy D :=
  { p with
    windows := { p.windows with
      winStartMs := nowMs, gather := .empty, lastWin := .empty, trigRun := 0, cleanRun := 0, ceilRun := 0 }
    trials := { p.trials with
      relaxing := false, kickTrial := false, good := -1, lastDownMs := 0, downWait := kCleanWindows }
    lever := p.lever.restart }

/-- The evidence is gone: k holds, and nothing gathered before decides after. -/
def expire (p : Policy D) (nowMs : Nat) : Policy D :=
  { p with
    ring := p.ring.emptyRing
    clock := { p.clock with haveClock := false, cycle := .empty }
    windows := { p.windows with
      winStartMs := nowMs, gather := .empty, lastWin := .empty, trigRun := 0, cleanRun := 0, ceilRun := 0 }
    trials := { p.trials with kickTrial := false }
    lever := { p.lever with effectOpen := false } }

def windowResult (p : Policy D) : WindowResult D :=
  let g := p.windows.gather
  let mean := if g.cycles = 0 then ofNat 0 else g.excessSum / ofNat g.cycles
  let decided := decide (kWindowMinCycles ≤ g.cycles)
  { decided := decided
    cycles := g.cycles
    misses := g.misses
    gpuBound := g.gpuBound
    unexplained := g.unexplained
    anyMisses := g.anyMisses
    meanExcessMs := mean
    triggered := decided && !p.clock.holding && decide (g.cycles ≤ g.misses * kTriggerDivisor)
    headroom := decided && g.anyMisses == 0 && lt mean (-lit 10 1) }

def closeWindow (p : Policy D) (nowMs : Nat) : Policy D :=
  let w := p.windowResult
  { p with
    windows := { p.windows with
      trigRun := if w.decided then if w.triggered then p.windows.trigRun + 1 else 0 else p.windows.trigRun
      cleanRun := if w.decided then if w.headroom then p.windows.cleanRun + 1 else 0 else p.windows.cleanRun
      ceilRun := if w.decided then if w.triggered ∧ p.steps = p.maxSteps then p.windows.ceilRun + 1 else 0
        else p.windows.ceilRun
      lastWin := w, windowClosed := true, winStartMs := nowMs, gather := .empty }
    trials := { p.trials with
      relaxing := p.trials.relaxing && !(w.decided && w.triggered && !p.trials.kickTrial) } }

def begins (p : Policy D) (s : FrameSignals D) : Policy D :=
  { p with
    clock := { p.clock with cycle := .empty }
    windows := { p.windows with
      started := true, windowClosed := false
      winStartMs := if p.windows.started then p.windows.winStartMs else s.nowMs }
    lever := { p.lever with camValid := s.camValid, cam := if s.camValid then s.cam else p.lever.cam } }

/-- On foot: k is 1 at once, and everything else is forgotten but the k that was in force. -/
def holdOnFoot (p : Policy D) (s : FrameSignals D) : Policy D × Step :=
  let p := if p.onFoot then p
    else { p with onFoot := true, footSteps := if 0 < p.steps then p.steps else p.footSteps }
  let p := { p with
    clampPending := false, inSettlement := false, sparse := 0
    ring := p.ring.emptyRing, clock := { p.clock with haveClock := false } }
  let p := p.restart s.nowMs
  if 0 < p.steps then ({ p with steps := 0 }, .foot) else (p, .none)

def boards (p : Policy D) (s : FrameSignals D) : Policy D :=
  if p.onFoot then { p with onFoot := false, boardedMs := s.nowMs } else p

def measures (p : Policy D) (s : FrameSignals D) : Policy D :=
  let cycle : Cycle D :=
    if le (ofNat 0) s.clockMs && p.clock.haveClock then
      { p.clock.cycle with measured := true, ms := s.clockMs - p.clock.lastClockMs }
    else p.clock.cycle
  let period := if s.work = .valid then s.periodMs else p.clock.periodMs
  let missed := cycle.measured && lt (ofNat 0) period && lt (lit 15 1 * period) cycle.ms
  { p with
    clock := { p.clock with
      haveClock := le (ofNat 0) s.clockMs
      lastClockMs := if le (ofNat 0) s.clockMs then s.clockMs else p.clock.lastClockMs
      cycle := { cycle with missed := missed } }
    windows := { p.windows with
      gather := { p.windows.gather with
        anyMisses := p.windows.gather.anyMisses + if missed then 1 else 0 } } }

def expires (p : Policy D) (s : FrameSignals D) : Policy D :=
  if s.expired ∨ s.work = .invalid then p.expire s.nowMs else p

/-- Density, with hysteresis; the flag says that the settlement was left. -/
def density (p : Policy D) (s : FrameSignals D) : Policy D × Bool :=
  if kSettlementRecords ≤ s.records then ({ p with inSettlement := true, sparse := 0 }, false)
  else if p.inSettlement ∧ s.records + kSettlementBand < kSettlementRecords then
    if kConsecutive ≤ p.sparse + 1 then ({ p with inSettlement := false, sparse := 0 }, true)
    else ({ p with sparse := p.sparse + 1 }, false)
  else ({ p with sparse := 0 }, false)

def departs (p : Policy D) (s : FrameSignals D) : Policy D × Step :=
  let p := { p with ring := p.ring.emptyRing, clock := { p.clock with haveClock := false } }
  let p := p.restart s.nowMs
  if 0 < p.steps then ({ p with steps := 0 }, .reset) else (p, .none)

def samples (p : Policy D) (s : FrameSignals D) : Policy D :=
  if s.work = .valid then
    let gpuBound := p.clock.cycle.missed && s.gpuValid && le (s.periodMs - lit 5 1) s.gpuMs
    let unexplained := p.clock.cycle.missed && !gpuBound && lt s.workMs (s.periodMs - lit 3 1)
    let ours := p.clock.cycle.missed && !gpuBound && !unexplained
    let g := p.windows.gather
    { p with
      clock := { p.clock with
        periodMs := s.periodMs
        holding := s.source == .app
        cycle := { p.clock.cycle with gpuBound := gpuBound, unexplained := unexplained } }
      ring := p.ring.push ⟨s.workMs - s.periodMs, ours, gpuBound, unexplained⟩
      windows := { p.windows with
        gather := if p.clock.cycle.measured then
            { g with
              cycles := g.cycles + 1
              excessSum := g.excessSum + (s.workMs - s.periodMs)
              gpuBound := g.gpuBound + if gpuBound then 1 else 0
              unexplained := g.unexplained + if unexplained then 1 else 0
              misses := g.misses + if ours then 1 else 0 }
          else g }
      lever := if p.lever.effectOpen then
          { p.lever with
            effectCallerSum := p.lever.effectCallerSum + s.workMs, effectCallerN := p.lever.effectCallerN + 1 }
        else p.lever }
  else p

/-- The lever's effect, frame by frame, and whether a step may be retried. -/
def feels (p : Policy D) (s : FrameSignals D) : Policy D :=
  let l := p.lever
  let frame : Parts D := ⟨ofNat s.tested, ofNat s.passed, ofNat s.records⟩
  let l := if 0 < s.records ∨ 0 < s.tested then
      { l with
        parts := l.parts.push frame
        effectAfter := if l.effectOpen then l.effectAfter.add frame else l.effectAfter }
    else l
  let l := if l.effectOpen ∧ kEffectFrames ≤ l.effectCallerN ∧
      (kEffectFrames ≤ l.effectAfter.n ∨ l.effectBefore.n = 0) then l.judgeEffect s.nowMs
    else l
  let l := if l.inert ∧ ¬l.retryArmed ∧ ¬l.effectOpen ∧ (kRetryMs ≤ sinceMs s.nowMs l.inertSinceMs ∨
      lt (ofNat 0) l.testedAtHold ∧ lt (lit 20 2 * l.testedAtHold) (abs (l.testedMean - l.testedAtHold))) then
      { l with retryArmed := true }
    else l
  { p with lever := l }

/-- Back aboard, the settlement may bring the k from before the hold back. -/
def comesAboard (p : Policy D) (s : FrameSignals D) : Policy D × Option Step :=
  if 0 < p.footSteps then
    if p.fixed ∨ kAboardMs < sinceMs s.nowMs p.boardedMs then ({ p with footSteps := 0 }, none)
    else if p.inSettlement ∧ kSettlementRecords ≤ s.records then
      let back := if p.footSteps < p.maxSteps then p.footSteps else p.maxSteps
      if p.steps < back then ({ p with footSteps := 0, steps := back }, some .aboard)
      else ({ p with footSteps := 0 }, none)
    else (p, none)
  else (p, none)

def clamps (p : Policy D) : Policy D × Option Step :=
  if p.clampPending then
    if p.maxSteps < p.steps then ({ p with clampPending := false, steps := p.maxSteps }, some .clamp)
    else ({ p with clampPending := false }, none)
  else (p, none)

def openEffect (p : Policy D) (kind : Opened) (coarse : Bool) : Policy D :=
  { p with lever := p.lever.openEffect kind coarse p.callerNow }

/-- A step down that has held: the next trial does not wait longer. -/
def backsOff (p : Policy D) (s : FrameSignals D) : Policy D :=
  if p.windows.lastWin.triggered then { p with windows := { p.windows with lastTriggerMs := s.nowMs } }
  else if p.trials.lastDownMs ≠ 0 ∧ p.windows.lastTriggerMs < p.trials.lastDownMs ∧
      kBackoffResetMs ≤ sinceMs s.nowMs p.trials.lastDownMs then
    { p with trials := { p.trials with downWait := kCleanWindows } }
  else p

def triesKick (p : Policy D) (s : FrameSignals D) : Policy D × Option Step :=
  if p.trials.kickTrial then
    let p := { p with trials := { p.trials with trialWindows := p.trials.trialWindows + 1 } }
    if kKickTrialWindows ≤ p.trials.trialWindows then
      let p := { p with trials := { p.trials with kickTrial := false } }
      if p.windows.lastWin.triggered then
        ({ p with
            steps := if p.trials.preKickSteps < p.maxSteps then p.trials.preKickSteps else p.maxSteps
            trials := { p.trials with
              relaxing := false, kickBlockedUntilMs := (s.nowMs + kKickBlockMs) % 2 ^ 64, restoreKick := true }
            windows := { p.windows with trigRun := 0, ceilRun := 0 } },
          some .restore)
      else (p, none)
    else (p, none)
  else (p, none)

def restores (p : Policy D) (s : FrameSignals D) : Policy D × Option Step :=
  if p.trials.lastDownMs ≠ 0 ∧ sinceMs s.nowMs p.trials.lastDownMs ≤ kTrialMs ∧ p.steps < p.trials.good then
    ({ p with
        steps := if p.trials.good < p.maxSteps then p.trials.good else p.maxSteps
        trials := { p.trials with
          downWait := if p.trials.downWait * 2 < kCleanWindowsMax then p.trials.downWait * 2 else kCleanWindowsMax
          lastDownMs := 0, relaxing := false, restoreKick := false } },
      some .restore)
  else (p, none)

def goesUp (p : Policy D) (s : FrameSignals D) : Policy D :=
  let w := p.windows.lastWin
  let near := decide (p.steps < p.trials.good ∧ p.trials.good - p.steps ≤ kCoarseQuanta)
  let coarse := !near && (decide (w.cycles ≤ w.misses * kCoarseDivisor) || lt (lit 10 1) w.meanExcessMs)
  let quanta : Int := if coarse then kCoarseQuanta else 1
  let retry := p.lever.inert
  let lever := { p.lever with retry := retry }
  let lever := if retry then
      { lever with retryArmed := false, inertSinceMs := s.nowMs, testedAtHold := p.lever.testedMean }
    else lever
  let p := { p with
    steps := if p.maxSteps < p.steps + quanta then p.maxSteps else p.steps + quanta
    lever := lever }
  p.openEffect .up coarse

def kicks (p : Policy D) (s : FrameSignals D) : Policy D :=
  let p := { p with
    steps := p.maxSteps
    trials := { p.trials with
      preKickSteps := p.steps
      relaxTarget := if p.steps + kCoarseQuanta < p.maxSteps then p.steps + kCoarseQuanta else p.maxSteps
      kicked := true, relaxing := true, kickTrial := true, trialWindows := 0, lastKickMs := s.nowMs } }
  p.openEffect .kick false

/-- A triggering second: the working point again, a kick, or a step up. -/
def triggers (p : Policy D) (s : FrameSignals D) : Policy D × Step :=
  let dense := p.inSettlement ∧ kSettlementRecords ≤ s.records
  match p.restores s with
  | (p, some step) => (p, step)
  | (p, none) =>
    let p := if 0 ≤ p.trials.good ∧ p.trials.good ≤ p.steps then
        { p with trials := { p.trials with good := -1 } }
      else p
    if p.lever.inert ∧ ¬p.lever.retryArmed then
      ({ p with windows := { p.windows with trigRun := 0 } }, .none)
    else if ¬p.lever.inert ∧ dense ∧ p.steps < p.maxSteps ∧ kKickWindows ≤ p.windows.trigRun ∧
        p.trials.kickBlockedUntilMs ≤ s.nowMs ∧
        (¬p.trials.kicked ∨ kKickIntervalMs ≤ sinceMs s.nowMs p.trials.lastKickMs) then
      (p.kicks s, .kick)
    else if dense ∧ p.steps < p.maxSteps then (p.goesUp s, .up)
    else (p, .none)

def goesDown (p : Policy D) (s : FrameSignals D) : Policy D :=
  let relaxStep := p.trials.relaxing && decide (p.trials.relaxTarget < p.steps)
  let quanta : Int := if relaxStep then
      if p.steps - p.trials.relaxTarget < kCoarseQuanta then p.steps - p.trials.relaxTarget else kCoarseQuanta
    else 1
  { p with
    steps := p.steps - quanta
    trials := { p.trials with
      good := p.steps, lastDownMs := s.nowMs
      relaxing := p.trials.relaxing && relaxStep && decide (p.trials.relaxTarget < p.steps - quanta) }
    windows := { p.windows with cleanRun := 0 } }

def decides (p : Policy D) (s : FrameSignals D) : Policy D × Step :=
  let p := if p.lever.effectOpen then { p with lever := p.lever.judgeEffect s.nowMs } else p
  match (p.backsOff s).triesKick s with
  | (p, some step) => (p, step)
  | (p, none) =>
    if p.windows.lastWin.triggered then p.triggers s
    else if 0 < p.steps ∧ p.trials.downWait ≤ p.windows.cleanRun then (p.goesDown s, .down)
    else (p, .none)

/-- Once a second the window closes; in reduced the settlement alone says what k is. -/
def concludes (p : Policy D) (s : FrameSignals D) : Policy D × Step :=
  let closed := decide (kWindowMs ≤ sinceMs s.nowMs p.windows.winStartMs)
  let p := if closed then p.closeWindow s.nowMs else p
  if p.fixed then
    if p.inSettlement ∧ p.steps ≠ p.maxSteps then
      (openEffect { p with steps := p.maxSteps } .enter false, .enter)
    else (p, .none)
  else if closed && p.windows.lastWin.decided then p.decides s
  else (p, .none)

def goesOn (p : Policy D) (s : FrameSignals D) : Policy D × Step :=
  match ((p.samples s).feels s).comesAboard s with
  | (p, some step) => (p, step)
  | (p, none) =>
    match p.clamps with
    | (p, some step) => (p, step)
    | (p, none) => p.concludes s

def update (p : Policy D) (s : FrameSignals D) : Policy D × Step :=
  if s.onFoot then (p.begins s).holdOnFoot s
  else
    match ((((p.begins s).boards s).measures s).expires s).density s with
    | (p, true) => p.departs s
    | (p, false) => p.goesOn s

end Policy

end EdvrPatch.Lod
