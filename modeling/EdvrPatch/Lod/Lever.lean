import EdvrPatch.Common.Clock
import EdvrPatch.Lib.Ring

/-! What a step of the governor is worth (`lod_governor.cpp`): the frames and samples
around it, whether the scene was stable, and when the lever is inert. The figures of the
log, the counts behind it and the baseline of the ceiling's outcome are left out. -/
namespace EdvrPatch.Lod

open Lib

/-- The doubles of the program, with no more than what it does with them. `lit n d` is
the literal `n / 10 ^ d`. -/
class Doubles (D : Type) extends Add D, Sub D, Mul D, Div D, Neg D where
  ofNat : Nat → D
  lit : Nat → Nat → D
  abs : D → D
  lt : D → D → Bool
  le : D → D → Bool

open Doubles

variable {D : Type} [Doubles D]

def kEffectFrames : Nat := 30
def kEffectMin : Nat := 10
def kInertUnits : Nat := 4
def kRetryMs : Nat := 30000

structure Parts (D : Type) where
  tested : D
  passed : D
  records : D

structure Cohort (D : Type) where
  n : Nat
  records : D
  tested : D
  passed : D
  recordsLo : D
  recordsHi : D
  testedLo : D
  testedHi : D

namespace Cohort

def empty : Cohort D :=
  ⟨0, ofNat 0, ofNat 0, ofNat 0, ofNat 0, ofNat 0, ofNat 0, ofNat 0⟩

def add (c : Cohort D) (f : Parts D) : Cohort D where
  n := c.n + 1
  records := c.records + f.records
  tested := c.tested + f.tested
  passed := c.passed + f.passed
  recordsLo := if c.n = 0 ∨ lt f.records c.recordsLo then f.records else c.recordsLo
  recordsHi := if c.n = 0 ∨ lt c.recordsHi f.records then f.records else c.recordsHi
  testedLo := if c.n = 0 ∨ lt f.tested c.testedLo then f.tested else c.testedLo
  testedHi := if c.n = 0 ∨ lt c.testedHi f.tested then f.tested else c.testedHi

def done (c : Cohort D) : Cohort D :=
  if c.n = 0 then c
  else
    { c with
      records := c.records / ofNat c.n, tested := c.tested / ofNat c.n, passed := c.passed / ofNat c.n }

def stable (c : Cohort D) : Bool :=
  kEffectMin ≤ c.n &&
    le (c.recordsHi - c.records) (lit 5 2 * c.records + lit 5 1) &&
    le (c.records - c.recordsLo) (lit 5 2 * c.records + lit 5 1) &&
    le (c.testedHi - c.tested) (lit 10 2 * c.tested + lit 5 1) &&
    le (c.tested - c.testedLo) (lit 10 2 * c.tested + lit 5 1)

end Cohort

inductive Effect where
  | notJudged
  | benefit
  | noBenefit
  deriving DecidableEq, Repr

def classifyEffect (testedBefore testedAfter passedBefore passedAfter callerBefore callerAfter : D) : Effect :=
  let partsJudged := le (lit 2000 1) testedBefore && le (ofNat 0) testedAfter && le (ofNat 0) passedAfter
  let callerJudged := le (ofNat 0) callerBefore && le (ofNat 0) callerAfter
  let partsFell := partsJudged && (le (lit 1 2 * testedBefore) (testedBefore - testedAfter) ||
    (lt (ofNat 0) passedBefore && le (lit 1 2 * passedBefore) (passedBefore - passedAfter)))
  let callerFell := callerJudged && le (lit 2 1) (callerBefore - callerAfter)
  if partsFell || callerFell then .benefit
  else if partsJudged && callerJudged then .noBenefit
  else .notJudged

inductive Opened where
  | up
  | kick
  | enter
  deriving DecidableEq, Repr

structure Lever (D : Type) where
  parts : Ring (Parts D) kEffectFrames
  camValid : Bool := false
  cam : D × D × D
  effectOpen : Bool := false
  effectKind : Opened := .up
  effectCoarse : Bool := false
  effectRetry : Bool := false
  effectBefore : Cohort D
  effectAfter : Cohort D
  effectBeforeCaller : D
  effectCallerSum : D
  effectCallerN : Nat := 0
  effectCamValid : Bool := false
  effectCam : D × D × D
  lastEffect : Effect := .notJudged
  inertUnits : Nat := 0
  inert : Bool := false
  retry : Bool := false
  retryArmed : Bool := false
  inertSinceMs : Nat := 0
  testedAtHold : D

namespace Lever

def init : Lever D where
  parts := { slots := fun _ => ⟨ofNat 0, ofNat 0, ofNat 0⟩ }
  cam := (ofNat 0, ofNat 0, ofNat 0)
  effectBefore := .empty
  effectAfter := .empty
  effectBeforeCaller := -ofNat 1
  effectCallerSum := ofNat 0
  effectCam := (ofNat 0, ofNat 0, ofNat 0)
  testedAtHold := ofNat 0

def testedMean (l : Lever D) : D :=
  if l.parts.count = 0 then ofNat 0
  else l.parts.latest.foldl (fun sum f => sum + f.tested) (ofNat 0) / ofNat l.parts.count

def ringCohort (l : Lever D) : Cohort D :=
  (l.parts.latest.foldl Cohort.add Cohort.empty).done

def sameCam (l : Lever D) (a : D × D × D) (aValid : Bool) : Bool :=
  if !aValid || !l.camValid then false
  else
    let dx := a.1 - l.cam.1
    let dy := a.2.1 - l.cam.2.1
    let dz := a.2.2 - l.cam.2.2
    le (dx * dx + dy * dy + dz * dz) (lit 20 1 * lit 20 1)

def restart (l : Lever D) : Lever D :=
  { l with
    parts := { l.parts with next := 0, count := 0 }
    effectOpen := false, inert := false, retryArmed := false, inertUnits := 0 }

def openEffect (l : Lever D) (kind : Opened) (coarse : Bool) (callerNow : D) : Lever D :=
  { l with
    effectOpen := true
    effectKind := kind
    effectCoarse := coarse
    effectRetry := kind == .up && l.retry
    effectBefore := l.ringCohort
    effectAfter := .empty
    effectBeforeCaller := callerNow
    effectCallerSum := ofNat 0
    effectCallerN := 0
    effectCamValid := l.camValid
    effectCam := l.cam }

def openedEffect (l : Lever D) : Effect :=
  let after := l.effectAfter.done
  let before := l.effectBefore
  let caller := if kEffectMin ≤ l.effectCallerN then l.effectCallerSum / ofNat l.effectCallerN else -ofNat 1
  let stable := before.stable && after.stable
  let grew := lt (before.records * (lit 10 1 + lit 2 2) + lit 5 1) after.records ||
    lt (before.tested * (lit 10 1 + lit 2 2) + lit 5 1) after.tested
  let moved := l.effectCamValid && l.camValid && !l.sameCam l.effectCam true
  if stable && !grew && !moved then
    classifyEffect before.tested after.tested before.passed after.passed l.effectBeforeCaller caller
  else .notJudged

/-- The open step is judged: a retried one with a benefit makes the lever work again, and
others without one make it inert in the end. -/
def judgeEffect (l : Lever D) (nowMs : Nat) : Lever D :=
  let effect := l.openedEffect
  let l := { l with effectOpen := false, lastEffect := effect }
  if l.effectKind ≠ .up then l
  else if l.effectRetry then
    if effect = .benefit ∧ l.inert then { l with inert := false, retryArmed := false, inertUnits := 0 } else l
  else if effect = .benefit then { l with inertUnits := 0 }
  else if effect ≠ .noBenefit then l
  else
    let units := l.inertUnits + if l.effectCoarse then 2 else 1
    if kInertUnits ≤ units ∧ ¬l.inert then
      { l with
        inertUnits := units, inert := true, retryArmed := false, inertSinceMs := nowMs,
        testedAtHold := l.testedMean }
    else { l with inertUnits := units }

end Lever

end EdvrPatch.Lod
