import EdvrPatch.Lod.Range
import EdvrPatch.Lib.Monitor

/-! The pace of the governor, read off what its updates say: which evidence a step needs,
and how far steps, kicks and failed kicks are apart. -/
namespace EdvrPatch.Lod

open Lib Doubles

/-- What is to be seen of an update: the signals that end the evidence, whether its cycle
came with a valid sample, the window it closed, whether k was below k_max and auto was on
then, and what it returned. -/
structure Turn (D : Type) where
  nowMs : Nat
  foot : Bool
  expired : Bool
  departed : Bool
  sampled : Bool
  window : Option (WindowResult D)
  below : Bool
  downWait : Nat
  auto : Bool
  step : Step

def Step.paced : Step → Bool
  | .up | .down | .kick | .restore => true
  | _ => false

/-- `fresh` cycles came with a valid sample since a window closed or the evidence ended;
the latest `clean` decided windows had headroom, and the latest `below` triggered with k
below k_max. Of the trial of a kick, `trial` decided windows of auto have been seen. -/
structure PaceView where
  fresh : Nat := 0
  clean : Nat := 0
  below : Nat := 0
  stepped : Option Nat := none
  kicked : Option Nat := none
  failed : Option Nat := none
  trial : Option Nat := none

namespace PaceView

variable {D : Type}

def ended (v : PaceView) (ends : Bool) : PaceView :=
  { v with fresh := if ends then 0 else v.fresh, trial := if ends then none else v.trial }

def cycle (v : PaceView) (t : Turn D) : PaceView :=
  let ends := t.foot || t.expired || t.departed
  { v.ended ends with fresh := if ends then 0 else v.fresh + if t.sampled then 1 else 0 }

def close (v : PaceView) (w : WindowResult D) (below auto : Bool) : PaceView :=
  { v with
    fresh := 0
    trial := if w.decided && auto then (v.trial.filter (· < 5)).map (· + 1) else v.trial
    clean := if w.decided then if w.headroom then v.clean + 1 else 0 else v.clean
    below := if w.decided then if w.triggered && below then v.below + 1 else 0 else v.below }

/-- What restores in the fifth decided window after a kick is that kick's failing. -/
def step (v : PaceView) (nowMs : Nat) : Step → PaceView
  | .up | .down => { v with stepped := some nowMs }
  | .kick => { v with stepped := some nowMs, kicked := some nowMs, trial := some 0 }
  | .restore => { v with stepped := some nowMs, failed := if v.trial = some 5 then some nowMs else v.failed }
  | _ => v

/-- What a step on the window `w` needs, once that window is closed. -/
structure Permits (v : PaceView) (nowMs downWait : Nat) (w : WindowResult D) (step : Step) : Prop where
  decided : w.decided = true
  triggered : step ≠ .down → w.triggered = true
  headroom : step = .down → downWait ≤ v.clean
  apart : ∀ t ∈ v.stepped, t + 1000 ≤ nowMs
  kicks : step = .kick → (∀ t ∈ v.kicked, t + 30000 ≤ nowMs) ∧ (∀ t ∈ v.failed, t + 60000 ≤ nowMs) ∧ 10 ≤ v.below

end PaceView

/-- A step needs a window that it closes: decided, over twenty cycles at least, all of
which came with a valid sample since the evidence last ended. -/
def paceProtocol {D : Type} : Monitor PaceView (Turn D) where
  advance v t :=
    let seen := v.cycle t
    match t.window with
    | none => seen.step t.nowMs t.step
    | some w => (seen.close w t.below t.auto).step t.nowMs t.step
  allows v t :=
    t.step.paced = true →
      t.expired = false ∧ ∃ w, t.window = some w ∧ w.cycles = (v.cycle t).fresh ∧ 20 ≤ w.cycles ∧
        ((v.cycle t).close w t.below t.auto).Permits t.nowMs t.downWait w t.step

variable {D : Type}

/-- The policy and what was seen of it, at `now`, but for the trial of a kick. -/
structure Policy.Paces (p : Policy D) (v : PaceView) (now : Nat) : Prop where
  fresh : p.windows.gather.cycles = v.fresh
  clean : p.windows.cleanRun ≤ v.clean
  below : p.windows.trigRun ≤ v.below ∨ p.maxSteps ≤ p.steps
  start : p.windows.started = true → p.windows.winStartMs ≤ now
  stepped : ∀ t ∈ v.stepped, p.windows.started = true ∧ t ≤ p.windows.winStartMs
  kicked : ∀ t ∈ v.kicked, p.trials.kicked = true ∧ p.trials.lastKickMs = t ∧ t ≤ now
  failed : ∀ t ∈ v.failed, p.trials.kickBlockedUntilMs = t + 60000

structure Policy.Kept (p : Policy D) (v : PaceView) (now : Nat) : Prop extends p.Paces v now where
  trial : v.trial.filter (· < 5) = if p.trials.kickTrial then some p.trials.trialWindows else none

namespace Policy

theorem init_kept [Doubles D] : (init : Policy D).Kept {} 0 where
  fresh := rfl
  clean := Nat.le_refl 0
  below := .inl (Nat.le_refl 0)
  start := fun _ => Nat.le_refl 0
  stepped := nofun
  kicked := nofun
  failed := nofun
  trial := rfl

namespace Kept

variable {p : Policy D} {v : PaceView} {now : Nat}

theorem configure {F : Type} [Floats F] (kept : p.Kept v now) {kMax : F}
    (unlifted : ¬(p.maxSteps ≤ p.steps ∧ p.steps < stepsOf kMax ∧ 0 < p.windows.trigRun)) :
    (p.configure kMax).Kept v now := by
  refine { kept with below := ?_ }
  obtain run | full := kept.below
  · exact .inl run
  · by_cases lifted : p.steps < stepsOf kMax
    · have none : p.windows.trigRun = 0 := by
        by_contra some
        exact unlifted ⟨full, lifted, Nat.pos_of_ne_zero some⟩
      exact .inl (Nat.le_trans (Nat.le_of_eq none) (Nat.zero_le _))
    · exact .inr (Int.not_lt.mp lifted)

theorem setFixed (kept : p.Kept v now) (fixed : Bool) : (p.setFixed fixed).Kept v now :=
  { kept with }

theorem boards (kept : p.Kept v now) (s : FrameSignals D) : (p.boards s).Kept v now := by
  unfold Policy.boards
  split
  · exact { kept with }
  · exact kept

theorem stepped_le (kept : p.Kept v now) {t : Nat} (step : t ∈ v.stepped) : t ≤ now :=
  Nat.le_trans (kept.stepped t step).2 (kept.start (kept.stepped t step).1)

theorem ends (kept : p.Kept v now) {q : Policy D} (begun : q.windows.started = p.windows.started)
    (windows : q.windows.gather.cycles = 0 ∧ q.windows.cleanRun = 0 ∧ q.windows.trigRun = 0 ∧
      q.windows.winStartMs = now)
    (trials : q.trials.kicked = p.trials.kicked ∧ q.trials.lastKickMs = p.trials.lastKickMs ∧
      q.trials.kickBlockedUntilMs = p.trials.kickBlockedUntilMs ∧ q.trials.kickTrial = false) :
    q.Kept (v.ended true) now where
  fresh := windows.1
  clean := Nat.le_trans (Nat.le_of_eq windows.2.1) (Nat.zero_le _)
  below := .inl (Nat.le_trans (Nat.le_of_eq windows.2.2.1) (Nat.zero_le _))
  start := fun _ => Nat.le_of_eq windows.2.2.2
  stepped := fun t step => ⟨begun ▸ (kept.stepped t step).1, windows.2.2.2 ▸ kept.stepped_le step⟩
  kicked := fun t kick => trials.1 ▸ trials.2.1 ▸ kept.kicked t kick
  failed := fun t failed => trials.2.2.1 ▸ kept.failed t failed
  trial := (if_neg (by simp [trials.2.2.2])).symm

theorem comesAboard (kept : p.Kept v now) (s : FrameSignals D) : (p.comesAboard s).1.Kept v now := by
  unfold Policy.comesAboard
  split
  · split
    · exact { kept with }
    · split
      · have least := lesser_le p.footSteps p.maxSteps
        generalize (if p.footSteps < p.maxSteps then p.footSteps else p.maxSteps) = back at least ⊢
        dsimp only
        split
        · rename_i higher
          refine { kept with below := .inl (kept.below.resolve_right fun full => ?_) }
          omega
        · exact { kept with }
      · exact kept
  · exact kept

theorem clamps (kept : p.Kept v now) : p.clamps.1.Kept v now := by
  unfold Policy.clamps
  split
  · split
    · exact { kept with below := .inr (Int.le_refl _) }
    · exact { kept with }
  · exact kept

end Kept

section

variable [Doubles D]

namespace Kept

variable {p : Policy D} {v : PaceView} {now : Nat}

variable {s : FrameSignals D}

theorem begins (kept : p.Kept v now) (later : now ≤ s.nowMs) : (p.begins s).Kept v s.nowMs := by
  have start : (if p.windows.started then p.windows.winStartMs else s.nowMs) ≤ s.nowMs := by
    split
    · rename_i started
      exact Nat.le_trans (kept.start started) later
    · exact Nat.le_refl _
  refine { kept with start := fun _ => start, stepped := fun t step => ⟨rfl, ?_⟩, kicked := fun t kick => ?_ }
  · obtain ⟨started, le⟩ := kept.stepped t step
    unfold Policy.begins
    rwa [if_pos started]
  · obtain ⟨kicked, same, le⟩ := kept.kicked t kick
    exact ⟨kicked, same, Nat.le_trans le later⟩

theorem measures (kept : p.Kept v now) (s : FrameSignals D) : (p.measures s).Kept v now :=
  { kept with }

theorem feels (kept : p.Kept v now) (s : FrameSignals D) : (p.feels s).Kept v now :=
  { kept with }

theorem samples (kept : p.Kept v now) (s : FrameSignals D) :
    (p.samples s).Kept { v with
      fresh := v.fresh + if s.work == .valid && p.clock.cycle.measured then 1 else 0 } now := by
  unfold Policy.samples
  by_cases valid : s.work = .valid
  · rw [if_pos valid]
    refine { kept with fresh := ?_ }
    rw [← kept.fresh, valid]
    cases p.clock.cycle.measured <;> rfl
  · rw [if_neg valid, show (s.work == .valid) = false from beq_false_of_ne valid]
    exact { kept with }

theorem expires (kept : p.Kept v s.nowMs) :
    (p.expires s).Kept (v.ended (s.expired || s.work == .invalid)) s.nowMs := by
  unfold Policy.expires
  by_cases expired : s.expired = true ∨ s.work = .invalid
  · rw [if_pos expired, show (s.expired || s.work == .invalid) = true by simpa using expired]
    exact kept.ends rfl ⟨rfl, rfl, rfl, rfl⟩ ⟨rfl, rfl, rfl, rfl⟩
  · rw [if_neg expired, show (s.expired || s.work == .invalid) = false by simpa using expired]
    exact kept

theorem holdOnFoot (kept : p.Kept v s.nowMs) :
    (p.holdOnFoot s).1.Kept (v.ended true) s.nowMs := by
  have held : (if p.onFoot then p
      else { p with onFoot := true, footSteps := if 0 < p.steps then p.steps else p.footSteps }).Kept v s.nowMs := by
    split
    · exact kept
    · exact { kept with }
  unfold Policy.holdOnFoot
  generalize (if p.onFoot then p
    else { p with onFoot := true, footSteps := if 0 < p.steps then p.steps else p.footSteps }) = q at held ⊢
  dsimp only
  split <;> exact held.ends rfl ⟨rfl, rfl, rfl, rfl⟩ ⟨rfl, rfl, rfl, rfl⟩

theorem departs (kept : p.Kept v s.nowMs) : (p.departs s).1.Kept (v.ended true) s.nowMs := by
  unfold Policy.departs
  dsimp only
  split <;> exact kept.ends rfl ⟨rfl, rfl, rfl, rfl⟩ ⟨rfl, rfl, rfl, rfl⟩

theorem closeWindow (kept : p.Kept v now) (begun : p.windows.started = true) (auto : Bool) :
    (p.closeWindow now).Paces (v.close p.windowResult (decide (p.steps < p.maxSteps)) auto) now := by
  have clean := kept.clean
  refine
    { fresh := rfl, clean := ?_, below := ?_, start := fun _ => Nat.le_refl _,
      stepped := fun t step => ⟨begun, kept.stepped_le step⟩, kicked := kept.kicked, failed := kept.failed }
  · unfold Policy.closeWindow PaceView.close
    dsimp only
    split
    · split <;> omega
    · exact clean
  · unfold Policy.closeWindow PaceView.close
    dsimp only
    by_cases full : p.maxSteps ≤ p.steps
    · exact .inr full
    · have run := kept.below.resolve_right full
      rw [decide_eq_true (Int.not_le.mp full), Bool.and_true]
      refine .inl ?_
      split
      · split <;> omega
      · exact run

end Kept

end

end Policy

end EdvrPatch.Lod
