import EdvrPatch.Lod.Pace

/-! The decisions of the governor, and its runs: every step is taken on a window that was
just closed, and at its own pace. -/
namespace EdvrPatch.Lod

open Lib Doubles

variable {D : Type}

structure Policy.AtClose (p : Policy D) (v : PaceView) (now : Nat) : Prop extends p.Paces v now where
  decided : p.windows.lastWin.decided = true
  calm : p.windows.lastWin.triggered = false → p.windows.trigRun = 0
  started : p.windows.started = true
  fromNow : p.windows.winStartMs = now
  apart : ∀ t ∈ v.stepped, t + 1000 ≤ now

/-- A window has been closed that the trial of a kick has not been told of. -/
structure Policy.Closing (p : Policy D) (v : PaceView) (now : Nat) : Prop extends p.AtClose v now where
  trying : p.trials.kickTrial = true → p.trials.trialWindows < 5 ∧ v.trial = some (p.trials.trialWindows + 1)
  idle : p.trials.kickTrial = false → v.trial = none

/-- The trial goes on, or is over and has not failed. -/
structure Policy.Closed (p : Policy D) (v : PaceView) (now : Nat) : Prop extends p.AtClose v now where
  trial : v.trial.filter (· < 5) = if p.trials.kickTrial then some p.trials.trialWindows else none
  unfailed : p.windows.lastWin.triggered = true → v.trial ≠ some 5

/-- What a decision comes to: a step that is permitted, or none. -/
structure Paced (w : WindowResult D) (v : PaceView) (now : Nat) (r : Policy D × Step) : Prop where
  permits : r.2.paced = true → v.Permits now r.1.trials.downWait w r.2
  kept : r.1.Kept (v.step now r.2) now

/-- What a trial comes to: a step, or the decision is still open. -/
def Tried (w : WindowResult D) (v : PaceView) (now : Nat) : Policy D × Option Step → Prop
  | (p, some step) => Paced w v now (p, step)
  | (p, none) => p.windows.lastWin = w ∧ p.Closed v now

section

variable {p : Policy D} {v : PaceView} {s : FrameSignals D}

theorem Policy.Closing.backsOff (closing : p.Closing v s.nowMs) : (p.backsOff s).Closing v s.nowMs := by
  unfold Policy.backsOff
  split
  · exact { closing with }
  · split
    · exact { closing with }
    · exact closing

theorem Policy.Closing.triesKick (closing : p.Closing v s.nowMs) (fits : s.nowMs + kKickBlockMs < 2 ^ 64) :
    Tried p.windows.lastWin v s.nowMs (p.triesKick s) := by
  unfold Policy.triesKick
  split
  · rename_i trying
    obtain ⟨few, trial⟩ := closing.trying trying
    dsimp only
    split
    · rename_i fifth
      have last : v.trial = some 5 := by
        rw [trial]
        unfold kKickTrialWindows at fifth
        congr 1
        omega
      split
      · rename_i triggered
        refine ⟨fun _ => ?_, ?_⟩
        · exact ⟨closing.decided, fun _ => triggered, by rintro ⟨⟩, closing.apart, by rintro ⟨⟩⟩
        · refine
            { closing.toPaces with
              below := .inl (Nat.zero_le _), stepped := ?_, failed := ?_, trial := by rw [PaceView.step, last]; rfl }
          · rintro t ⟨⟩
            exact ⟨closing.started, Nat.le_of_eq closing.fromNow.symm⟩
          · rw [PaceView.step, if_pos last]
            rintro t ⟨⟩
            exact Nat.mod_eq_of_lt fits
      · rename_i calm
        exact ⟨rfl, { closing with trial := by rw [last]; rfl, unfailed := fun triggered => absurd triggered calm }⟩
    · rename_i more
      unfold kKickTrialWindows at more
      refine ⟨rfl, { closing with trial := ?_, unfailed := fun _ => ?_ }⟩
      · rw [trial, Option.filter_some, if_pos (decide_eq_true (Nat.not_le.mp more)), if_pos trying]
      · rw [trial]
        intro same
        exact more (Nat.le_of_eq (Option.some.inj same).symm)
  · rename_i none
    have trial := closing.idle (Bool.not_eq_true _ ▸ none)
    refine ⟨rfl, { closing with trial := ?_, unfailed := fun _ => ?_ }⟩
    · rw [trial, if_neg none]
      rfl
    · rw [trial]
      exact (Option.some_ne_none 5).symm

end

namespace Policy.Closed

variable {p : Policy D} {v : PaceView} {s : FrameSignals D}

theorem kept (closed : p.Closed v s.nowMs) : p.Kept v s.nowMs :=
  { closed with }

theorem rests (closed : p.Closed v s.nowMs) : Paced p.windows.lastWin v s.nowMs (p, .none) :=
  ⟨nofun, closed.kept⟩

theorem restores (closed : p.Closed v s.nowMs) (triggered : p.windows.lastWin.triggered = true) :
    Tried p.windows.lastWin v s.nowMs (p.restores s) := by
  unfold Policy.restores
  split
  · rename_i failed
    refine ⟨fun _ => ?_, ?_⟩
    · exact ⟨closed.decided, fun _ => triggered, nofun, closed.apart, nofun⟩
    · refine { closed.kept with below := ?_, stepped := ?_, failed := ?_ }
      · obtain run | full := closed.below
        · exact .inl run
        · refine .inr ?_
          dsimp only
          split <;> omega
      · rintro t ⟨⟩
        exact ⟨closed.started, Nat.le_of_eq closed.fromNow.symm⟩
      · rw [PaceView.step, if_neg (closed.unfailed triggered)]
        exact closed.failed
  · exact ⟨rfl, closed⟩

theorem goesDown (closed : p.Closed v s.nowMs) (calm : p.windows.lastWin.triggered = false)
    (waited : p.trials.downWait ≤ p.windows.cleanRun) :
    Paced p.windows.lastWin v s.nowMs (p.goesDown s, .down) := by
  refine ⟨fun _ => ?_, ?_⟩
  · exact ⟨closed.decided, fun up => absurd rfl up, fun _ => Nat.le_trans waited closed.clean, closed.apart, nofun⟩
  · refine { closed.kept with clean := Nat.zero_le _, below := .inl ?_, stepped := ?_ }
    · exact Nat.le_trans (Nat.le_of_eq (closed.calm calm)) (Nat.zero_le _)
    · rintro t ⟨⟩
      exact ⟨closed.started, Nat.le_of_eq closed.fromNow.symm⟩

variable [Doubles D]

theorem goesUp (closed : p.Closed v s.nowMs) (triggered : p.windows.lastWin.triggered = true)
    (room : p.steps < p.maxSteps) : Paced p.windows.lastWin v s.nowMs (p.goesUp s, .up) := by
  refine ⟨fun _ => ?_, ?_⟩
  · exact ⟨closed.decided, fun _ => triggered, nofun, closed.apart, nofun⟩
  · refine { closed.kept with below := .inl (closed.below.resolve_right (Int.not_le.mpr room)), stepped := ?_ }
    rintro t ⟨⟩
    exact ⟨closed.started, Nat.le_of_eq closed.fromNow.symm⟩

theorem kicks (closed : p.Closed v s.nowMs) (triggered : p.windows.lastWin.triggered = true)
    (room : p.steps < p.maxSteps) (long : kKickWindows ≤ p.windows.trigRun)
    (unblocked : p.trials.kickBlockedUntilMs ≤ s.nowMs) (fits : s.nowMs < 2 ^ 64)
    (rested : ¬p.trials.kicked ∨ kKickIntervalMs ≤ sinceMs s.nowMs p.trials.lastKickMs) :
    Paced p.windows.lastWin v s.nowMs (p.kicks s, .kick) := by
  have below := closed.below.resolve_right (Int.not_le.mpr room)
  refine ⟨fun _ => ?_, ?_⟩
  · refine ⟨closed.decided, fun _ => triggered, nofun, closed.apart, fun _ => ⟨?_, ?_, ?_⟩⟩
    · intro t kick
      obtain ⟨kicked, last, le⟩ := closed.kicked t kick
      have since := rested.resolve_left (not_not_intro kicked)
      rw [last, sinceMs_of_le le fits] at since
      unfold kKickIntervalMs at since
      omega
    · intro t failed
      have := closed.failed t failed
      omega
    · exact Nat.le_trans long below
  · refine { closed.kept with below := .inr (Int.le_refl _), stepped := ?_, kicked := ?_, trial := rfl }
    · rintro t ⟨⟩
      exact ⟨closed.started, Nat.le_of_eq closed.fromNow.symm⟩
    · rintro t ⟨⟩
      exact ⟨rfl, rfl, Nat.le_refl _⟩

theorem triggers (closed : p.Closed v s.nowMs) (triggered : p.windows.lastWin.triggered = true)
    (fits : s.nowMs < 2 ^ 64) : Paced p.windows.lastWin v s.nowMs (p.triggers s) := by
  have restored := closed.restores triggered
  unfold Policy.triggers
  dsimp only
  split <;> rename_i found <;> rw [found] at restored
  · exact restored
  · rename_i q
    obtain ⟨same, after⟩ := restored
    rw [← same] at triggered ⊢
    have forgotten : (if 0 ≤ q.trials.good ∧ q.trials.good ≤ q.steps then
        { q with trials := { q.trials with good := -1 } } else q : Policy D).Closed v s.nowMs := by
      split
      · exact { after with }
      · exact after
    have same : (if 0 ≤ q.trials.good ∧ q.trials.good ≤ q.steps then
        { q with trials := { q.trials with good := -1 } } else q : Policy D).windows = q.windows := by
      split <;> rfl
    generalize (if 0 ≤ q.trials.good ∧ q.trials.good ≤ q.steps then
      { q with trials := { q.trials with good := -1 } } else q : Policy D) = q' at forgotten same ⊢
    rw [← same] at triggered ⊢
    split
    · exact ⟨nofun, { forgotten.kept with below := .inl (Nat.zero_le _) }⟩
    · split
      · rename_i kick
        exact forgotten.kicks triggered kick.2.2.1 kick.2.2.2.1 kick.2.2.2.2.1 fits kick.2.2.2.2.2
      · split
        · rename_i up
          exact forgotten.goesUp triggered up.2
        · exact forgotten.rests

end Policy.Closed

theorem Policy.Closing.decides [Doubles D] {p : Policy D} {v : PaceView} {s : FrameSignals D}
    (closing : p.Closing v s.nowMs) (fits : s.nowMs + kKickBlockMs < 2 ^ 64) :
    Paced p.windows.lastWin v s.nowMs (p.decides s) := by
  have judged : (if p.lever.effectOpen then { p with lever := p.lever.judgeEffect s.nowMs } else p : Policy D).Closing
      v s.nowMs := by
    split
    · exact { closing with }
    · exact closing
  have same : (if p.lever.effectOpen then { p with lever := p.lever.judgeEffect s.nowMs } else p : Policy D).windows =
      p.windows := by
    split <;> rfl
  unfold Policy.decides
  generalize (if p.lever.effectOpen then { p with lever := p.lever.judgeEffect s.nowMs } else p : Policy D) = q
    at judged same ⊢
  have window : (q.backsOff s).windows.lastWin = p.windows.lastWin := by
    rw [← same]
    unfold Policy.backsOff
    split
    · rfl
    · split <;> rfl
  have tried := judged.backsOff.triesKick fits
  rw [window] at tried
  dsimp only
  split <;> rename_i found <;> rw [found] at tried
  · exact tried
  · obtain ⟨last, after⟩ := tried
    rw [← last]
    split
    · rename_i triggered
      exact after.triggers triggered (by omega)
    · rename_i calm
      split
      · rename_i down
        exact after.goesDown (Bool.not_eq_true _ ▸ calm) down.2
      · exact after.rests

/-! What the decisions leave alone. -/

structure Policy.Beside (p q : Policy D) : Prop where
  measured : q.clock.cycle.measured = p.clock.cycle.measured
  inSettlement : q.inSettlement = p.inSettlement
  windowClosed : q.windows.windowClosed = p.windows.windowClosed
  lastWin : q.windows.lastWin = p.windows.lastWin
  started : q.windows.started = p.windows.started
  winStartMs : q.windows.winStartMs = p.windows.winStartMs

/-- A step that is not auto's own is returned, or k is as it was. -/
def Policy.Passes (p : Policy D) : Policy D × Option Step → Prop
  | (_, some step) => step = .aboard ∨ step = .clamp
  | (q, none) => q.steps = p.steps ∧ q.maxSteps = p.maxSteps ∧ q.fixed = p.fixed

namespace Policy

theorem Beside.refl (p : Policy D) : p.Beside p :=
  ⟨rfl, rfl, rfl, rfl, rfl, rfl⟩

theorem Beside.trans {p q r : Policy D} (first : p.Beside q) (second : q.Beside r) : p.Beside r where
  measured := second.measured.trans first.measured
  inSettlement := second.inSettlement.trans first.inSettlement
  windowClosed := second.windowClosed.trans first.windowClosed
  lastWin := second.lastWin.trans first.lastWin
  started := second.started.trans first.started
  winStartMs := second.winStartMs.trans first.winStartMs

variable (p : Policy D) (s : FrameSignals D)

theorem backsOff_beside : p.Beside (p.backsOff s) := by
  unfold backsOff
  split
  · exact ⟨rfl, rfl, rfl, rfl, rfl, rfl⟩
  · split <;> exact ⟨rfl, rfl, rfl, rfl, rfl, rfl⟩

theorem triesKick_beside : p.Beside (p.triesKick s).1 := by
  unfold triesKick
  split
  · dsimp only
    split
    · split <;> exact ⟨rfl, rfl, rfl, rfl, rfl, rfl⟩
    · exact ⟨rfl, rfl, rfl, rfl, rfl, rfl⟩
  · exact .refl p

theorem restores_beside : p.Beside (p.restores s).1 := by
  unfold restores
  split <;> exact ⟨rfl, rfl, rfl, rfl, rfl, rfl⟩

theorem comesAboard_beside : p.Beside (p.comesAboard s).1 := by
  unfold comesAboard
  split
  · split
    · exact ⟨rfl, rfl, rfl, rfl, rfl, rfl⟩
    · split
      · generalize (if p.footSteps < p.maxSteps then p.footSteps else p.maxSteps) = back
        dsimp only
        split <;> exact ⟨rfl, rfl, rfl, rfl, rfl, rfl⟩
      · exact .refl p
  · exact .refl p

theorem comesAboard_passes : p.Passes (p.comesAboard s) := by
  unfold comesAboard
  split
  · split
    · exact ⟨rfl, rfl, rfl⟩
    · split
      · generalize (if p.footSteps < p.maxSteps then p.footSteps else p.maxSteps) = back
        dsimp only
        split
        · exact .inl rfl
        · exact ⟨rfl, rfl, rfl⟩
      · exact ⟨rfl, rfl, rfl⟩
  · exact ⟨rfl, rfl, rfl⟩

theorem clamps_passes : p.Passes p.clamps := by
  unfold clamps
  split
  · split
    · exact .inr rfl
    · exact ⟨rfl, rfl, rfl⟩
  · exact ⟨rfl, rfl, rfl⟩

theorem clamps_beside : p.Beside p.clamps.1 := by
  unfold clamps
  split
  · split <;> exact ⟨rfl, rfl, rfl, rfl, rfl, rfl⟩
  · exact .refl p

variable [Doubles D]

theorem triggers_beside : p.Beside (p.triggers s).1 := by
  have restored := p.restores_beside s
  unfold triggers
  dsimp only
  split <;> rename_i found <;> rw [found] at restored
  · exact restored
  · refine restored.trans ?_
    rename_i q
    have forgotten : q.Beside (if 0 ≤ q.trials.good ∧ q.trials.good ≤ q.steps then
        { q with trials := { q.trials with good := -1 } } else q : Policy D) := by
      split <;> exact ⟨rfl, rfl, rfl, rfl, rfl, rfl⟩
    generalize (if 0 ≤ q.trials.good ∧ q.trials.good ≤ q.steps then
      { q with trials := { q.trials with good := -1 } } else q : Policy D) = q' at forgotten ⊢
    refine forgotten.trans ?_
    split
    · exact ⟨rfl, rfl, rfl, rfl, rfl, rfl⟩
    · split
      · exact ⟨rfl, rfl, rfl, rfl, rfl, rfl⟩
      · split <;> exact ⟨rfl, rfl, rfl, rfl, rfl, rfl⟩

theorem decides_beside : p.Beside (p.decides s).1 := by
  have judged : p.Beside (if p.lever.effectOpen then { p with lever := p.lever.judgeEffect s.nowMs } else p) := by
    split <;> exact ⟨rfl, rfl, rfl, rfl, rfl, rfl⟩
  unfold decides
  generalize (if p.lever.effectOpen then { p with lever := p.lever.judgeEffect s.nowMs } else p : Policy D) = q
    at judged ⊢
  have tried := (judged.trans (q.backsOff_beside s)).trans (triesKick_beside _ s)
  dsimp only
  split <;> rename_i found <;> rw [found] at tried
  · exact tried
  · refine tried.trans ?_
    split
    · exact triggers_beside _ s
    · split <;> exact ⟨rfl, rfl, rfl, rfl, rfl, rfl⟩

end Policy

/-! One update. -/

namespace Policy

structure Heads (p q : Policy D) (s : FrameSignals D) : Prop where
  started : q.windows.started = true
  unclosed : q.windows.windowClosed = false
  steps : q.steps = p.steps
  maxSteps : q.maxSteps = p.maxSteps
  fixed : q.fixed = p.fixed
  unmeasured : (s.expired || s.work == .invalid) = true → q.clock.cycle.measured = false
  fromNow : (s.expired || s.work == .invalid) = true → q.windows.winStartMs = s.nowMs

end Policy

theorem PaceView.step_unpaced {step : Step} (unpaced : step.paced = false) (v : PaceView) (now : Nat) :
    v.step now step = v := by
  cases step with
  | up | down | kick | restore => cases unpaced
  | none | reset | clamp | enter | foot | aboard => rfl

section

variable [Doubles D]

/-- What an update comes to that neither is on foot nor leaves the settlement: no window
and no step, or a window and what is decided on it. -/
structure Concluded (p : Policy D) (v : PaceView) (now : Nat) (below auto : Bool) (r : Policy D × Step) : Prop where
  measured : r.1.clock.cycle.measured = p.clock.cycle.measured
  inSettlement : r.1.inSettlement = p.inSettlement
  outcome :
    (r.1.windows.windowClosed = false ∧ r.2.paced = false ∧ r.1.Kept (v.step now r.2) now) ∨
    ∃ w, kWindowMs ≤ sinceMs now p.windows.winStartMs ∧ r.1.windows.windowClosed = true ∧
      r.1.windows.lastWin = w ∧ w.cycles = v.fresh ∧ (w.decided = true → 20 ≤ w.cycles) ∧
      Paced w (v.close w below auto) now r

namespace Policy.Kept

variable {p : Policy D} {v : PaceView} {s : FrameSignals D}

theorem closes (kept : p.Kept v s.nowMs) (started : p.windows.started = true)
    (second : kWindowMs ≤ sinceMs s.nowMs p.windows.winStartMs) (fits : s.nowMs < 2 ^ 64)
    (decided : p.windowResult.decided = true) :
    (p.closeWindow s.nowMs).Closing (v.close p.windowResult (decide (p.steps < p.maxSteps)) true) s.nowMs := by
  rw [sinceMs_of_le (kept.start started) fits] at second
  have counts : (v.close p.windowResult (decide (p.steps < p.maxSteps)) true).trial =
      (v.trial.filter (· < 5)).map (· + 1) := by
    unfold PaceView.close
    rw [decided]
    rfl
  have trial := kept.trial
  refine
    { kept.closeWindow started true with
      decided := decided, calm := ?_, started := started, fromNow := rfl, apart := ?_, trying := ?_, idle := ?_ }
  · intro calm
    unfold Policy.closeWindow
    dsimp only
    rw [if_pos decided, if_neg (Bool.not_eq_true _ ▸ calm)]
  · intro t step
    have := (kept.stepped t step).2
    unfold kWindowMs at second
    omega
  · intro (trying : p.trials.kickTrial = true)
    rw [if_pos trying] at trial
    rw [counts, trial]
    exact ⟨show p.trials.trialWindows < 5 by simpa using (Option.filter_eq_some_iff.mp trial).2, rfl⟩
  · intro (idle : p.trials.kickTrial = false)
    rw [counts, trial, idle]
    rfl

/-- A window that auto does not decide on is none of the trial's. -/
theorem passesWindow (kept : p.Kept v s.nowMs) (started : p.windows.started = true) {auto : Bool}
    (passed : (p.windowResult.decided && auto) = false) :
    (p.closeWindow s.nowMs).Kept (v.close p.windowResult (decide (p.steps < p.maxSteps)) auto) s.nowMs := by
  refine { kept.closeWindow started auto with trial := ?_ }
  unfold PaceView.close
  rw [passed]
  exact kept.trial

theorem concludes (kept : p.Kept v s.nowMs) (started : p.windows.started = true)
    (unclosed : p.windows.windowClosed = false) (fits : s.nowMs + kKickBlockMs < 2 ^ 64) :
    Concluded p v s.nowMs (decide (p.steps < p.maxSteps)) (!p.fixed) (p.concludes s) := by
  have small : s.nowMs < 2 ^ 64 := Nat.lt_of_le_of_lt (Nat.le_add_right _ _) fits
  unfold Policy.concludes
  by_cases second : kWindowMs ≤ sinceMs s.nowMs p.windows.winStartMs
  · rw [decide_eq_true second]
    have long : p.windowResult.decided = true → 20 ≤ p.windowResult.cycles := of_decide_eq_true
    simp only [if_true, Bool.true_and]
    split
    · rename_i isFixed
      have isFixed : p.fixed = true := isFixed
      rw [isFixed]
      have closed := kept.passesWindow started (Bool.and_false p.windowResult.decided)
      split
      · refine ⟨rfl, rfl, .inr ⟨p.windowResult, second, rfl, rfl, kept.fresh, long, nofun, ?_⟩⟩
        exact { closed with below := .inr (Int.le_refl _) }
      · exact ⟨rfl, rfl, .inr ⟨p.windowResult, second, rfl, rfl, kept.fresh, long, nofun, closed⟩⟩
    · rename_i free
      have free : p.fixed = false := Bool.not_eq_true _ ▸ free
      rw [free]
      split
      · rename_i decided
        have beside := (p.closeWindow s.nowMs).decides_beside s
        have paced := (kept.closes started second small decided).decides fits
        exact ⟨beside.measured, beside.inSettlement,
          .inr ⟨p.windowResult, second, beside.windowClosed, beside.lastWin, kept.fresh, long, paced⟩⟩
      · rename_i undecided
        have undecided : ¬p.windowResult.decided = true := undecided
        have closed := kept.passesWindow started (show (p.windowResult.decided && true) = false by
          simpa using undecided)
        exact ⟨rfl, rfl, .inr ⟨p.windowResult, second, rfl, rfl, kept.fresh, long, nofun, closed⟩⟩
  · rw [decide_eq_false second]
    simp only [Bool.false_eq_true, if_false, Bool.false_and]
    split
    · split
      · exact ⟨rfl, rfl, .inl ⟨unclosed, rfl, { kept with below := .inr (Int.le_refl _) }⟩⟩
      · exact ⟨rfl, rfl, .inl ⟨unclosed, rfl, kept⟩⟩
    · exact ⟨rfl, rfl, .inl ⟨unclosed, rfl, kept⟩⟩

theorem goesOn {v' : PaceView} (kept : p.Kept v s.nowMs) (started : p.windows.started = true)
    (unclosed : p.windows.windowClosed = false) (fits : s.nowMs + kKickBlockMs < 2 ^ 64)
    (sampled : v' = { v with fresh := v.fresh + if s.work == .valid && p.clock.cycle.measured then 1 else 0 }) :
    Concluded p v' s.nowMs (decide (p.steps < p.maxSteps)) (!p.fixed) (p.goesOn s) := by
  subst sampled
  have felt := (kept.samples s).feels s
  have same : p.Beside ((p.samples s).feels s) ∧
      ((p.samples s).feels s).steps = p.steps ∧ ((p.samples s).feels s).maxSteps = p.maxSteps ∧
      ((p.samples s).feels s).fixed = p.fixed := by
    unfold Policy.feels Policy.samples
    split <;> exact ⟨⟨rfl, rfl, rfl, rfl, rfl, rfl⟩, rfl, rfl, rfl⟩
  unfold Policy.goesOn
  generalize (p.samples s).feels s = q at felt same ⊢
  generalize ({ v with fresh := _ } : PaceView) = v' at felt ⊢
  obtain ⟨beside, steps, most, same⟩ := same
  have aboard := felt.comesAboard s
  have first := beside.trans (q.comesAboard_beside s)
  have passed := q.comesAboard_passes s
  split <;> rename_i found <;> rw [found] at aboard first passed
  · refine ⟨first.measured, first.inSettlement, .inl ⟨first.windowClosed.trans unclosed, ?_⟩⟩
    obtain rfl | rfl := passed
    · exact ⟨rfl, aboard⟩
    · exact ⟨rfl, aboard⟩
  · rename_i q'
    have clamped := aboard.clamps
    have second := first.trans q'.clamps_beside
    have through := q'.clamps_passes
    split <;> rename_i met <;> rw [met] at clamped second through
    · refine ⟨second.measured, second.inSettlement, .inl ⟨second.windowClosed.trans unclosed, ?_⟩⟩
      obtain rfl | rfl := through
      · exact ⟨rfl, clamped⟩
      · exact ⟨rfl, clamped⟩
    · have concluded := clamped.concludes (second.started.trans started) (second.windowClosed.trans unclosed) fits
      rw [through.1, through.2.1, through.2.2, passed.1, passed.2.1, passed.2.2, steps, most, same] at concluded
      exact ⟨concluded.measured.trans second.measured, concluded.inSettlement.trans second.inSettlement,
        second.winStartMs ▸ concluded.outcome⟩

end Policy.Kept

namespace Policy

def turn (p : Policy D) (s : FrameSignals D) : Turn D :=
  let r := p.update s
  { nowMs := s.nowMs
    foot := s.onFoot
    expired := s.expired || s.work == .invalid
    departed := p.inSettlement && !r.1.inSettlement
    sampled := s.work == .valid && r.1.clock.cycle.measured
    window := if r.1.windows.windowClosed then some r.1.windows.lastWin else none
    below := decide (p.steps < p.maxSteps)
    downWait := r.1.trials.downWait
    auto := !p.fixed
    step := r.2 }

def head (p : Policy D) (s : FrameSignals D) : Policy D :=
  (((p.begins s).boards s).measures s).expires s

theorem head_heads (p : Policy D) (s : FrameSignals D) :
    p.Heads (p.head s) s ∧ (p.head s).inSettlement = p.inSettlement := by
  unfold head expires boards
  by_cases expired : s.expired = true ∨ s.work = .invalid
  · rw [if_pos expired]
    split <;> exact ⟨⟨rfl, rfl, rfl, rfl, rfl, fun _ => rfl, fun _ => rfl⟩, rfl⟩
  · have fresh : ¬(s.expired || s.work == .invalid) = true := by simpa using expired
    rw [if_neg expired]
    split <;> exact ⟨⟨rfl, rfl, rfl, rfl, rfl, fun ends => absurd ends fresh, fun ends => absurd ends fresh⟩, rfl⟩

end Policy

theorem Policy.Kept.quiet {p : Policy D} {s : FrameSignals D} {v : PaceView}
    (unpaced : (p.update s).2.paced = false) (unclosed : (p.update s).1.windows.windowClosed = false)
    (kept : (p.update s).1.Kept (v.cycle (p.turn s)) s.nowMs) :
    paceProtocol.allows v (p.turn s) ∧ (p.update s).1.Kept (paceProtocol.advance v (p.turn s)) s.nowMs := by
  have window : (p.turn s).window = none := by
    unfold Policy.turn
    dsimp only
    rw [if_neg (Bool.not_eq_true _ ▸ unclosed)]
  refine ⟨fun paced => absurd (unpaced.symm.trans paced) Bool.false_ne_true, ?_⟩
  unfold paceProtocol
  dsimp only
  rw [window]
  have step : (p.turn s).step.paced = false := unpaced
  rwa [PaceView.step_unpaced step]

namespace Policy

variable {p : Policy D} {s : FrameSignals D}

theorem holdOnFoot_quiet : (p.holdOnFoot s).2.paced = false ∧
    (p.holdOnFoot s).1.windows.windowClosed = p.windows.windowClosed := by
  have same : (if p.onFoot then p
      else { p with onFoot := true, footSteps := if 0 < p.steps then p.steps else p.footSteps }).windows =
        p.windows := by
    split <;> rfl
  unfold holdOnFoot
  generalize (if p.onFoot then p
    else { p with onFoot := true, footSteps := if 0 < p.steps then p.steps else p.footSteps }) = q at same ⊢
  rw [← same]
  dsimp only
  split <;> exact ⟨rfl, rfl⟩

theorem departs_quiet : (p.departs s).2.paced = false ∧
    (p.departs s).1.windows.windowClosed = p.windows.windowClosed ∧ (p.departs s).1.inSettlement = p.inSettlement := by
  unfold departs
  dsimp only
  split <;> exact ⟨rfl, rfl, rfl⟩

theorem Kept.goes {q : Policy D} {v : PaceView}
    (kept : q.Kept (v.ended (s.expired || s.work == .invalid)) s.nowMs)
    (heads : p.Heads q s) (run : p.update s = q.goesOn s) (aboard : s.onFoot = false)
    (stays : p.inSettlement = true → q.inSettlement = true) (fits : s.nowMs + kKickBlockMs < 2 ^ 64) :
    paceProtocol.allows v (p.turn s) ∧ (p.update s).1.Kept (paceProtocol.advance v (p.turn s)) s.nowMs := by
  have facts := kept.goesOn heads.started heads.unclosed fits rfl
  rw [← run] at facts
  have seen : v.cycle (p.turn s) = { v.ended (s.expired || s.work == .invalid) with
      fresh := (v.ended (s.expired || s.work == .invalid)).fresh +
        if s.work == .valid && q.clock.cycle.measured then 1 else 0 } := by
    have departed : (p.turn s).departed = false := by
      unfold turn
      dsimp only
      rw [facts.inSettlement]
      cases inside : p.inSettlement with
      | true => rw [stays inside]; rfl
      | false => rfl
    have foot : (p.turn s).foot = false := aboard
    have sampled : (p.turn s).sampled = (s.work == .valid && q.clock.cycle.measured) := by
      unfold turn
      dsimp only
      rw [facts.measured]
    unfold PaceView.cycle
    rw [departed, foot, sampled, Bool.false_or, Bool.or_false]
    have expired : (p.turn s).expired = (s.expired || s.work == .invalid) := rfl
    rw [expired]
    cases ends : (s.expired || s.work == .invalid) with
    | true => rw [heads.unmeasured ends, Bool.and_false]; rfl
    | false => rfl
  have concluded := kept.goesOn heads.started heads.unclosed fits seen
  rw [← run, heads.steps, heads.maxSteps, heads.fixed] at concluded
  obtain ⟨unclosed, unpaced, after⟩ | ⟨w, second, closed, last, cycles, long, paced⟩ := concluded.outcome
  · rw [PaceView.step_unpaced unpaced] at after
    exact Kept.quiet unpaced unclosed after
  · have window : (p.turn s).window = some w := by
      unfold turn
      dsimp only
      rw [if_pos closed, last]
    refine ⟨fun auto => ?_, ?_⟩
    · have permits := paced.permits auto
      refine ⟨?_, w, window, cycles, long permits.decided, permits⟩
      by_contra expired
      have none : sinceMs s.nowMs s.nowMs = 0 := by
        unfold sinceMs
        rw [Nat.add_sub_cancel, Nat.mod_self]
      rw [heads.fromNow (Bool.not_eq_false _ ▸ expired), none] at second
      cases second
    · unfold paceProtocol
      dsimp only
      rw [window]
      exact paced.kept

theorem update_density (aboard : ¬s.onFoot = true) : p.update s = match (p.head s).density s with
    | (q, true) => q.departs s
    | (q, false) => q.goesOn s :=
  if_neg aboard

theorem Kept.update {v : PaceView} {now : Nat} (kept : p.Kept v now) (later : now ≤ s.nowMs)
    (fits : s.nowMs + kKickBlockMs < 2 ^ 64) :
    paceProtocol.allows v (p.turn s) ∧ (p.update s).1.Kept (paceProtocol.advance v (p.turn s)) s.nowMs := by
  have began := kept.begins later
  by_cases foot : s.onFoot = true
  · have run : p.update s = (p.begins s).holdOnFoot s := if_pos foot
    have quiet := @holdOnFoot_quiet D _ (p.begins s) s
    refine Kept.quiet (run ▸ quiet.1) (run ▸ quiet.2) ?_
    have ends : v.cycle (p.turn s) = v.ended true := by
      unfold PaceView.cycle turn
      rw [foot]
      rfl
    rw [ends, run]
    exact began.holdOnFoot
  · obtain ⟨heads, place⟩ := p.head_heads s
    have headed : (p.head s).Kept (v.ended (s.expired || s.work == .invalid)) s.nowMs :=
      ((began.boards s).measures s).expires
    have run := @update_density D _ p s foot
    have aboard := Bool.not_eq_true _ ▸ foot
    obtain found | ⟨sparse, found⟩ | ⟨inside, found⟩ := (p.head s).density_cases s
    · rw [found] at run
      have began : ({ p.head s with inSettlement := true, sparse := 0 } : Policy D).Kept _ s.nowMs := { headed with }
      exact began.goes { heads with } run aboard (fun _ => rfl) fits
    · rw [found] at run
      have began : ({ p.head s with sparse := sparse } : Policy D).Kept _ s.nowMs := { headed with }
      exact began.goes { heads with } run aboard (fun inside => place.trans inside) fits
    · rw [found] at run
      have quiet := @departs_quiet D _ { p.head s with inSettlement := false, sparse := 0 } s
      refine Kept.quiet (run ▸ quiet.1) (run ▸ quiet.2.1.trans heads.unclosed) ?_
      have ends : v.cycle (p.turn s) = v.ended true := by
        have left : (p.turn s).departed = true := by
          unfold turn
          dsimp only
          rw [run, quiet.2.2, ← place, inside]
          rfl
        unfold PaceView.cycle
        rw [left, Bool.or_true]
        rfl
      rw [ends, run]
      exact Kept.departs (v := v.ended (s.expired || s.work == .invalid)) { headed with }

end Policy

/-! Runs, from a policy that is new or was reset. -/

inductive Move (D F : Type) where
  | configure (kMax : F)
  | setFixed (fixed : Bool)
  | update (s : FrameSignals D)

variable {F : Type} [Floats F]

def governor : Machine (Policy D) (Move D F) (Turn D) where
  perform
    | p, .configure kMax => (p.configure kMax, [])
    | p, .setFixed fixed => (p.setFixed fixed, [])
    | p, .update s => ((p.update s).1, [p.turn s])

def times (moves : List (Move D F)) : List Nat :=
  moves.filterMap fun
    | .update s => some s.nowMs
    | _ => none

/-- While triggering seconds are counted with k at k_max, no k_max above k is configured. -/
def Unlifted : Policy D → List (Move D F) → Prop
  | _, [] => True
  | p, .configure kMax :: rest =>
    ¬(p.maxSteps ≤ p.steps ∧ p.steps < Policy.stepsOf kMax ∧ 0 < p.windows.trigRun) ∧
      Unlifted (p.configure kMax) rest
  | p, .setFixed fixed :: rest => Unlifted (p.setFixed fixed) rest
  | p, .update s :: rest => Unlifted (p.update s).1 rest

theorem Policy.Kept.run {p : Policy D} {v : PaceView} {now : Nat} {moves : List (Move D F)} (kept : p.Kept v now)
    (later : ∀ t ∈ times moves, now ≤ t) (ordered : (times moves).Pairwise (· ≤ ·))
    (fits : ∀ t ∈ times moves, t + kKickBlockMs < 2 ^ 64) (unlifted : Unlifted p moves) :
    paceProtocol.Admits v (governor.run p moves).2 := by
  induction moves generalizing p v now with
  | nil => trivial
  | cons move rest ih =>
    cases move with
    | configure kMax => exact ih (kept.configure unlifted.1) later ordered fits unlifted.2
    | setFixed fixed => exact ih (kept.setFixed fixed) later ordered fits unlifted
    | update s =>
      have updated := kept.update (later s.nowMs List.mem_cons_self) (fits s.nowMs List.mem_cons_self)
      have ordered := List.pairwise_cons.mp ordered
      exact ⟨updated.1, ih updated.2 ordered.1 ordered.2 (fun t mem => fits t (List.mem_cons_of_mem _ mem)) unlifted⟩

/-- In a run in which no k_max above k is configured while triggering seconds are counted
at k_max, and the clock is short of its end by a minute, every step of auto is taken on
fresh evidence and at its own pace. -/
theorem governor_keeps_pace (moves : List (Move D F)) (ordered : (times moves).Pairwise (· ≤ ·))
    (fits : ∀ t ∈ times moves, t + kKickBlockMs < 2 ^ 64) (unlifted : Unlifted (.init : Policy D) moves) :
    paceProtocol.Admits {} (governor.run (.init : Policy D) moves).2 :=
  Policy.init_kept.run (fun _ _ => Nat.zero_le _) ordered fits unlifted

end

/-! Two runs, in exact arithmetic. -/

instance : Doubles ℚ where
  ofNat n := n
  lit n d := (n : ℚ) / 10 ^ d
  abs x := if x < 0 then -x else x
  lt x y := decide (x < y)
  le x y := decide (x ≤ y)

instance : Floats ℚ where
  ofNat n := n
  lt x y := decide (x < y)
  le x y := decide (x ≤ y)
  lround x := if 0 ≤ x then ⌊x + 1 / 2⌋ else -⌊-x + 1 / 2⌋
  lround_nonneg := by
    intro x above
    have above : 1 ≤ x := by simpa using above
    have positive : 0 ≤ (x - 1) * 20 := mul_nonneg (sub_nonneg.mpr above) (by norm_num)
    have rounded : 0 ≤ ⌊(x - 1) * 20 + 1 / 2⌋ := Int.floor_nonneg.mpr (add_nonneg positive (by norm_num))
    simpa [positive] using rounded
  le_eight := by decide
  le_one := by decide

/-- One of twenty frames a second that take two slots each for the caller's sake. -/
def slowFrame (i : Nat) : Move ℚ ℚ :=
  .update
    { records := 200, onFoot := false, work := .valid, source := .caller, expired := false
      workMs := 10, periodMs := 10, nowMs := 50 * i, clockMs := 20 * i, gpuValid := false, gpuMs := 0
      tested := 0, passed := 0, camValid := false, cam := (0, 0, 0) }

def slowSecond : List (Move ℚ ℚ) :=
  .configure 8 :: (List.range 21).map slowFrame

theorem slowSecond_goes_up :
    (governor.run (.init : Policy ℚ) slowSecond).2.getLast?.map Turn.step = some .up ∧
      paceProtocol.Admits {} (governor.run (.init : Policy ℚ) slowSecond).2 :=
  ⟨by decide +kernel, governor_keeps_pace slowSecond (by decide +kernel) (by decide +kernel) ⟨by decide +kernel, trivial⟩⟩

/-- Ten slow seconds at a k_max of 1, which is 8 in the last frame. -/
def liftedMax : List (Move ℚ ℚ) :=
  .configure 1 :: (List.range 200).map slowFrame ++ [.configure 8, slowFrame 200]

theorem ten_below_of_kick {D : Type} {v : PaceView} {log : List (Turn D)} {t : Turn D}
    (admitted : paceProtocol.Admits v (log ++ [t])) (kick : t.step = .kick) :
    10 ≤ (paceProtocol.after v (log ++ [t])).below := by
  have allowed := admitted.allows_at
  obtain ⟨-, w, window, -, -, permits⟩ := allowed (by rw [kick]; rfl)
  have ten := (permits.kicks kick).2.2
  rw [Monitor.after_append, Monitor.after_cons, Monitor.after_nil]
  unfold paceProtocol
  dsimp only
  rw [window, kick]
  exact ten

/-- With k at k_max, ten seconds that trigger count; raised then, k_max is kicked to after
one second below it. -/
theorem lifted_kMax_kicks_at_once :
    (times liftedMax).Pairwise (· ≤ ·) ∧ (∀ t ∈ times liftedMax, t + kKickBlockMs < 2 ^ 64) ∧
      ¬paceProtocol.Admits {} (governor.run (.init : Policy ℚ) liftedMax).2 := by
  refine ⟨List.isChain_iff_pairwise.mp (by decide +kernel), by decide +kernel, fun admitted => ?_⟩
  have kick : (governor.run (.init : Policy ℚ) liftedMax).2.getLast?.map Turn.step = some .kick := by decide +kernel
  have below : (paceProtocol.after {} (governor.run (.init : Policy ℚ) liftedMax).2).below = 1 := by decide +kernel
  obtain ⟨t, last, isKick⟩ := Option.map_eq_some_iff.mp kick
  obtain ⟨log, isLog⟩ := List.getLast?_eq_some_iff.mp last
  rw [isLog] at admitted below
  have ten := ten_below_of_kick admitted isKick
  omega

end EdvrPatch.Lod
