import EdvrPatch.Lod.Governor

/-! The range of k. Detail is changed inside a settlement only, and between 1 and k_max:
what holds between two calls is kept by every stage of an update, and a run of calls has
only stages. -/
namespace EdvrPatch.Lod

open Lib Doubles

variable {D : Type}

def SampleRing.among (r : SampleRing D) (has : Sample D → Bool) : Int :=
  (r.ring.latest.countP has : Nat)

structure SampleRing.Counted (r : SampleRing D) : Prop where
  valid : r.ring.Valid
  miss : r.missCount = r.among Sample.miss
  gpu : r.gpuCount = r.among Sample.gpu
  unex : r.unexCount = r.among Sample.unex

namespace SampleRing

variable {r : SampleRing D}

theorem Counted.emptyRing (counted : r.Counted) : r.emptyRing.Counted :=
  ⟨counted.valid.clear, rfl, rfl, rfl⟩

theorem among_push (valid : r.ring.Valid) (x : Sample D) (has : Sample D → Bool) :
    (r.push x).among has =
      r.among has - (if r.ring.count = kSampleWindow ∧ has (r.ring.slots r.ring.next) then 1 else 0) +
        (if has x then 1 else 0) := by
  have latest := Ring.latest_push valid x
  have ring : (r.push x).ring = r.ring.push x := rfl
  unfold among
  rw [ring, latest]
  by_cases full : r.ring.count = kSampleWindow
  · rw [if_pos full, Ring.latest_full valid full, List.countP_cons, List.countP_append, List.countP_singleton]
    simp only [full, true_and]
    split <;> split <;> push_cast <;> omega
  · rw [if_neg full, List.countP_cons]
    simp only [full, false_and, if_false]
    split <;> push_cast <;> omega

theorem Counted.push (counted : r.Counted) (x : Sample D) : (r.push x).Counted := by
  refine ⟨counted.valid.push x, ?_, ?_, ?_⟩
  · rw [among_push counted.valid, ← counted.miss]
    rfl
  · rw [among_push counted.valid, ← counted.gpu]
    rfl
  · rw [among_push counted.valid, ← counted.unex]
    rfl

end SampleRing

structure Idle (steps : Int) (trials : Trials) : Prop where
  steps : steps = 0
  good : trials.good < 0
  kickTrial : trials.kickTrial = false
  relaxing : trials.relaxing = false

structure Policy.Sane (p : Policy D) : Prop where
  steps : 0 ≤ p.steps
  maxSteps : 0 ≤ p.maxSteps
  footSteps : 0 ≤ p.footSteps
  preKickSteps : 0 ≤ p.trials.preKickSteps
  relaxTarget : 0 ≤ p.trials.relaxTarget
  counted : p.ring.Counted

/-- What holds between two calls: a k above k_max is one a clamp is pending for. -/
structure Policy.Ranged (p : Policy D) : Prop extends Policy.Sane p where
  inside : p.inSettlement = false → Idle p.steps p.trials
  within : p.steps ≤ p.maxSteps ∨ p.clampPending = true

structure Policy.Settled (p : Policy D) : Prop extends Policy.Ranged p where
  bound : p.steps ≤ p.maxSteps

namespace Policy

theorem stepsOf_nonneg {F : Type} [Floats F] (kMax : F) : 0 ≤ stepsOf kMax := by
  have low : Floats.le (Floats.ofNat 1) (if Floats.le (Floats.ofNat 1) kMax then kMax else Floats.ofNat 1) = true := by
    split
    · assumption
    · exact Floats.le_one
  unfold stepsOf
  generalize (if Floats.le (Floats.ofNat 1) kMax then kMax else Floats.ofNat 1) = held at low ⊢
  apply Floats.lround_nonneg
  split
  · exact Floats.le_eight
  · exact low

namespace Ranged

variable {p : Policy D}

theorem configure {F : Type} [Floats F] (ranged : p.Ranged) (kMax : F) : (p.configure kMax).Ranged := by
  refine { ranged with maxSteps := stepsOf_nonneg kMax, within := ?_ }
  by_cases fits : p.steps ≤ stepsOf kMax
  · exact .inl fits
  · refine .inr ?_
    simp only [Policy.configure, Bool.or_eq_true, decide_eq_true_eq]
    omega

theorem setFixed (ranged : p.Ranged) (fixed : Bool) : (p.setFixed fixed).Ranged :=
  { ranged with }

theorem boards (ranged : p.Ranged) (s : FrameSignals D) : (p.boards s).Ranged := by
  unfold Policy.boards
  split
  · exact { ranged with }
  · exact ranged

end Ranged

theorem density_cases (p : Policy D) (s : FrameSignals D) :
    p.density s = ({ p with inSettlement := true, sparse := 0 }, false) ∨
      (∃ sparse, p.density s = ({ p with sparse := sparse }, false)) ∨
      (p.inSettlement = true ∧ p.density s = ({ p with inSettlement := false, sparse := 0 }, true)) := by
  unfold density
  split
  · exact .inl rfl
  · split
    · rename_i sparse
      split
      · exact .inr (.inr ⟨sparse.1, rfl⟩)
      · exact .inr (.inl ⟨_, rfl⟩)
    · exact .inr (.inl ⟨_, rfl⟩)

variable {p : Policy D}

theorem Ranged.density_stays (ranged : p.Ranged) {s : FrameSignals D}
    (stays : (p.density s).2 = false) : (p.density s).1.Ranged := by
  obtain found | ⟨sparse, found⟩ | ⟨-, found⟩ := p.density_cases s <;> rw [found] at stays ⊢
  · exact { ranged with inside := nofun }
  · exact { ranged with }
  · cases stays

theorem Sane.density (sane : p.Sane) (s : FrameSignals D) : (p.density s).1.Sane := by
  obtain found | ⟨sparse, found⟩ | ⟨-, found⟩ := p.density_cases s <;> rw [found] <;> exact { sane with }

theorem lesser_le (a b : Int) : (if a < b then a else b) ≤ b := by
  split <;> omega

theorem lesser_nonneg {a b : Int} (left : 0 ≤ a) (right : 0 ≤ b) : 0 ≤ if a < b then a else b := by
  split <;> assumption

theorem Ranged.comesAboard (ranged : p.Ranged) (s : FrameSignals D) :
    (p.comesAboard s).1.Ranged ∧ ((p.comesAboard s).2 ≠ none → (p.comesAboard s).1.Settled) := by
  have forgotten : ({ p with footSteps := 0 } : Policy D).Ranged := { ranged with footSteps := Int.le_refl 0 }
  unfold Policy.comesAboard
  split
  · rename_i pending
    split
    · exact ⟨forgotten, nofun⟩
    · split
      · rename_i dense
        have least := lesser_le p.footSteps p.maxSteps
        generalize (if p.footSteps < p.maxSteps then p.footSteps else p.maxSteps) = back at least ⊢
        dsimp only
        split
        · rename_i higher
          have settled : ({ p with footSteps := 0, steps := back } : Policy D).Settled :=
            { forgotten with
              steps := Int.le_trans ranged.steps (Int.le_of_lt higher)
              inside := fun outside => nomatch outside.symm.trans dense.1
              within := .inl least
              bound := least }
          exact ⟨settled.toRanged, fun _ => settled⟩
        · exact ⟨forgotten, nofun⟩
      · exact ⟨ranged, nofun⟩
  · exact ⟨ranged, nofun⟩

theorem Ranged.clamps (ranged : p.Ranged) : p.clamps.1.Settled := by
  unfold Policy.clamps
  split
  · split
    · refine { ranged with
        steps := ranged.maxSteps, inside := fun outside => ?_, within := .inl (Int.le_refl _), bound := Int.le_refl _ }
      have idle := ranged.inside outside
      have := idle.steps
      have := ranged.maxSteps
      omega
    · rename_i below
      exact { ranged with within := .inl (Int.not_lt.mp below), bound := Int.not_lt.mp below }
  · rename_i settled
    exact { ranged with bound := ranged.within.resolve_right settled }

/-! The decisions of a second that is over. -/

namespace Settled

variable {p : Policy D}

theorem backsOff (settled : p.Settled) (s : FrameSignals D) : (p.backsOff s).Settled := by
  unfold Policy.backsOff
  split
  · exact { settled with }
  · split
    · exact { settled with inside := fun outside => { settled.inside outside with } }
    · exact settled

theorem triesKick (settled : p.Settled) (s : FrameSignals D) : (p.triesKick s).1.Settled := by
  unfold Policy.triesKick
  split
  · rename_i trial
    have inside : p.inSettlement = true := by
      by_contra outside
      exact nomatch (settled.inside (Bool.not_eq_true _ ▸ outside)).kickTrial.symm.trans trial
    dsimp only
    split
    · split
      · exact { settled with
          steps := lesser_nonneg settled.preKickSteps settled.maxSteps
          inside := fun outside => nomatch outside.symm.trans inside
          within := .inl (lesser_le _ _)
          bound := lesser_le _ _ }
      · exact { settled with inside := fun outside => nomatch outside.symm.trans inside }
    · exact { settled with inside := fun outside => nomatch outside.symm.trans inside }
  · exact settled

theorem restores (settled : p.Settled) (s : FrameSignals D) : (p.restores s).1.Settled := by
  unfold Policy.restores
  split
  · rename_i failed
    have lower := failed.2.2
    have positive : 0 ≤ p.trials.good := Int.le_trans settled.steps (Int.le_of_lt lower)
    exact { settled with
      steps := lesser_nonneg positive settled.maxSteps
      inside := fun outside => absurd positive (Int.not_le.mpr (settled.inside outside).good)
      within := .inl (lesser_le _ _)
      bound := lesser_le _ _ }
  · exact settled

theorem goesDown (settled : p.Settled) (above : 0 < p.steps) (s : FrameSignals D) : (p.goesDown s).Settled := by
  have inside : p.inSettlement = true := by
    by_contra outside
    have := (settled.inside (Bool.not_eq_true _ ▸ outside)).steps
    omega
  have target := settled.relaxTarget
  have bound := settled.bound
  have lower : 0 ≤ (p.goesDown s).steps ∧ (p.goesDown s).steps ≤ p.maxSteps := by
    unfold Policy.goesDown kCoarseQuanta
    dsimp only
    split
    · rename_i relax
      have := of_decide_eq_true (Bool.and_eq_true_iff.mp relax).2
      split <;> omega
    · omega
  exact { settled with
    steps := lower.1
    inside := fun outside => nomatch outside.symm.trans inside
    within := .inl lower.2
    bound := lower.2 }

end Settled

end Policy

/-! What holds at first. -/

section

variable [Doubles D]

theorem SampleRing.init_counted : (init : SampleRing D).Counted :=
  ⟨⟨Nat.zero_lt_succ 29, Nat.zero_le 30⟩, rfl, rfl, rfl⟩

namespace Policy

theorem init_ranged : (init : Policy D).Ranged where
  steps := Int.le_refl 0
  maxSteps := Int.natCast_nonneg 100
  footSteps := Int.le_refl 0
  preKickSteps := Int.le_refl 0
  relaxTarget := Int.le_refl 0
  counted := SampleRing.init_counted
  inside := fun _ => ⟨rfl, Int.negSucc_lt_zero 0, rfl, rfl⟩
  within := .inl (Int.natCast_nonneg 100)

namespace Ranged

variable {p : Policy D}

theorem reset (ranged : p.Ranged) : p.reset.Ranged :=
  { (init_ranged : (Policy.init : Policy D).Ranged) with
    maxSteps := ranged.maxSteps, within := .inl ranged.maxSteps }

theorem begins (ranged : p.Ranged) (s : FrameSignals D) : (p.begins s).Ranged :=
  { ranged with }

theorem measures (ranged : p.Ranged) (s : FrameSignals D) : (p.measures s).Ranged :=
  { ranged with }

theorem expires (ranged : p.Ranged) (s : FrameSignals D) : (p.expires s).Ranged := by
  unfold Policy.expires
  split
  · exact { ranged with
      counted := ranged.counted.emptyRing
      inside := fun outside => { ranged.inside outside with kickTrial := rfl } }
  · exact ranged

theorem samples (ranged : p.Ranged) (s : FrameSignals D) : (p.samples s).Ranged := by
  unfold Policy.samples
  split
  · exact { ranged with counted := ranged.counted.push _ }
  · exact ranged

theorem feels (ranged : p.Ranged) (s : FrameSignals D) : (p.feels s).Ranged :=
  { ranged with }

theorem closeWindow (ranged : p.Ranged) (nowMs : Nat) : (p.closeWindow nowMs).Ranged := by
  refine { ranged with inside := fun outside => { ranged.inside outside with relaxing := ?_ } }
  unfold Policy.closeWindow
  dsimp only
  rw [(ranged.inside outside).relaxing, Bool.false_and]

end Ranged

/-! The ends of an update. -/

variable {p : Policy D}

theorem Sane.restarts (sane : p.Sane) (nowMs : Nat) (step : Step) :
    (if 0 < (p.restart nowMs).steps then ({ p.restart nowMs with steps := 0 }, step)
      else (p.restart nowMs, Step.none)).1.Settled := by
  have zero : ({ p.restart nowMs with steps := 0 } : Policy D).Settled :=
    { sane with
      steps := Int.le_refl 0
      inside := fun _ => ⟨rfl, Int.negSucc_lt_zero 0, rfl, rfl⟩
      within := .inl sane.maxSteps
      bound := sane.maxSteps }
  split
  · exact zero
  · rename_i none
    have steps : (p.restart nowMs).steps = 0 := Int.le_antisymm (Int.not_lt.mp none) sane.steps
    have same : ({ p.restart nowMs with steps := 0 } : Policy D) = p.restart nowMs := by
      rw [← steps]
    rwa [same] at zero

theorem Sane.holdOnFoot (sane : p.Sane) (s : FrameSignals D) : (p.holdOnFoot s).1.Settled := by
  unfold Policy.holdOnFoot
  dsimp only
  split
  · have empty : ({ p with
        clampPending := false, inSettlement := false, sparse := 0
        ring := p.ring.emptyRing, clock := { p.clock with haveClock := false } } : Policy D).Sane :=
      { sane with counted := sane.counted.emptyRing }
    exact empty.restarts s.nowMs .foot
  · have empty : ({ p with
        onFoot := true, footSteps := if 0 < p.steps then p.steps else p.footSteps
        clampPending := false, inSettlement := false, sparse := 0
        ring := p.ring.emptyRing, clock := { p.clock with haveClock := false } } : Policy D).Sane :=
      { sane with footSteps := ?_, counted := sane.counted.emptyRing }
    · exact empty.restarts s.nowMs .foot
    split
    · exact sane.steps
    · exact sane.footSteps

theorem Sane.departs (sane : p.Sane) (s : FrameSignals D) : (p.departs s).1.Settled := by
  have empty : ({ p with ring := p.ring.emptyRing, clock := { p.clock with haveClock := false } } : Policy D).Sane :=
    { sane with counted := sane.counted.emptyRing }
  exact empty.restarts s.nowMs .reset

namespace Settled

variable {p : Policy D}

theorem openEffect (settled : p.Settled) (kind : Opened) (coarse : Bool) : (p.openEffect kind coarse).Settled :=
  { settled with }

theorem goesUp (settled : p.Settled) (inside : p.inSettlement = true) (s : FrameSignals D) :
    (p.goesUp s).Settled := by
  have step : ∀ quanta : Int, 0 ≤ quanta →
      0 ≤ (if p.maxSteps < p.steps + quanta then p.maxSteps else p.steps + quanta) ∧
        (if p.maxSteps < p.steps + quanta then p.maxSteps else p.steps + quanta) ≤ p.maxSteps := by
    intro quanta positive
    have := settled.steps
    have := settled.maxSteps
    split <;> omega
  have stepped : ∀ quanta : Int, 0 ≤ quanta → ∀ lever, ({ p with
      steps := if p.maxSteps < p.steps + quanta then p.maxSteps else p.steps + quanta
      lever := lever } : Policy D).Settled := by
    intro quanta positive lever
    exact { settled with
      steps := (step quanta positive).1
      inside := fun outside => nomatch outside.symm.trans inside
      within := .inl (step quanta positive).2
      bound := (step quanta positive).2 }
  refine openEffect (stepped _ ?_ _) _ _
  unfold kCoarseQuanta
  split <;> omega

theorem kicks (settled : p.Settled) (inside : p.inSettlement = true) (s : FrameSignals D) :
    (p.kicks s).Settled := by
  have target : 0 ≤ p.steps + kCoarseQuanta := Int.add_nonneg settled.steps (by decide)
  have kicked : ({ p with
      steps := p.maxSteps
      trials := { p.trials with
        preKickSteps := p.steps
        relaxTarget := if p.steps + kCoarseQuanta < p.maxSteps then p.steps + kCoarseQuanta else p.maxSteps
        kicked := true, relaxing := true, kickTrial := true, trialWindows := 0
        lastKickMs := s.nowMs } } : Policy D).Settled :=
    { settled with
      steps := settled.maxSteps
      preKickSteps := settled.steps
      relaxTarget := lesser_nonneg target settled.maxSteps
      inside := fun outside => nomatch outside.symm.trans inside
      within := .inl (Int.le_refl _)
      bound := Int.le_refl _ }
  exact kicked.openEffect .kick false

theorem triggers (settled : p.Settled) (s : FrameSignals D) : (p.triggers s).1.Settled := by
  have restored := settled.restores s
  have same : (p.restores s).2 = none → (p.restores s).1 = p := by
    unfold Policy.restores
    split
    · exact nofun
    · exact fun _ => rfl
  unfold Policy.triggers
  dsimp only
  split <;> rename_i found <;> rw [found] at restored same
  · exact restored
  · have kept := (same rfl).symm
    subst kept
    have forgotten : (if 0 ≤ p.trials.good ∧ p.trials.good ≤ p.steps then
        { p with trials := { p.trials with good := -1 } } else p : Policy D).Settled := by
      split
      · exact { settled with inside := fun outside => { settled.inside outside with good := Int.negSucc_lt_zero 0 } }
      · exact settled
    have place : (if 0 ≤ p.trials.good ∧ p.trials.good ≤ p.steps then
        { p with trials := { p.trials with good := -1 } } else p : Policy D).inSettlement = p.inSettlement := by
      split <;> rfl
    generalize (if 0 ≤ p.trials.good ∧ p.trials.good ≤ p.steps then
      { p with trials := { p.trials with good := -1 } } else p : Policy D) = q at forgotten place ⊢
    split
    · exact { forgotten with }
    · split
      · rename_i kick
        exact forgotten.kicks (place.trans kick.2.1.1) s
      · split
        · rename_i up
          exact forgotten.goesUp (place.trans up.1.1) s
        · exact forgotten

theorem decides (settled : p.Settled) (s : FrameSignals D) : (p.decides s).1.Settled := by
  unfold Policy.decides
  have judged : (if p.lever.effectOpen then { p with lever := p.lever.judgeEffect s.nowMs } else p : Policy D).Settled := by
    split
    · exact { settled with }
    · exact settled
  generalize (if p.lever.effectOpen then { p with lever := p.lever.judgeEffect s.nowMs } else p : Policy D) = q
    at judged ⊢
  have tried := (judged.backsOff s).triesKick s
  dsimp only
  split <;> rename_i found <;> rw [found] at tried
  · exact tried
  · split
    · exact tried.triggers s
    · split
      · rename_i down
        exact tried.goesDown down.1 s
      · exact tried

theorem concludes (settled : p.Settled) (s : FrameSignals D) : (p.concludes s).1.Settled := by
  have closing : ∀ closed : Bool, (if closed then p.closeWindow s.nowMs else p : Policy D).Settled := by
    intro closed
    split
    · exact { settled.toRanged.closeWindow s.nowMs with bound := settled.bound }
    · exact settled
  unfold Policy.concludes
  dsimp only
  have closed := closing (decide (kWindowMs ≤ sinceMs s.nowMs p.windows.winStartMs))
  generalize (if decide (kWindowMs ≤ sinceMs s.nowMs p.windows.winStartMs) then p.closeWindow s.nowMs else p) = q
    at closed ⊢
  split
  · split
    · rename_i enters
      have entered : ({ q with steps := q.maxSteps } : Policy D).Settled :=
        { closed with
          steps := closed.maxSteps
          inside := fun outside => nomatch outside.symm.trans enters.1
          within := .inl (Int.le_refl _)
          bound := Int.le_refl _ }
      exact entered.openEffect .enter false
    · exact closed
  · split
    · exact closed.decides s
    · exact closed

end Settled

theorem Ranged.goesOn (ranged : p.Ranged) (s : FrameSignals D) : (p.goesOn s).1.Settled := by
  have aboard := ((ranged.samples s).feels s).comesAboard s
  unfold Policy.goesOn
  split <;> rename_i found <;> rw [found] at aboard
  · exact aboard.2 nofun
  · have clamped := aboard.1.clamps
    split <;> rename_i met <;> rw [met] at clamped
    · exact clamped
    · exact clamped.concludes s

theorem holdOnFoot_outside (p : Policy D) (s : FrameSignals D) : (p.holdOnFoot s).1.inSettlement = false := by
  unfold holdOnFoot
  generalize (if p.onFoot then p
    else { p with onFoot := true, footSteps := if 0 < p.steps then p.steps else p.footSteps }) = q
  dsimp only
  split <;> rfl

theorem Ranged.update (ranged : p.Ranged) (s : FrameSignals D) : (p.update s).1.Settled := by
  have began := ranged.begins s
  unfold Policy.update
  split
  · exact began.toSane.holdOnFoot s
  · have measured := ((began.boards s).measures s).expires s
    have sane := measured.toSane.density s
    have stays := @Ranged.density_stays _ _ measured s
    split <;> rename_i found <;> rw [found] at sane
    · exact sane.departs s
    · rw [found] at stays
      exact (stays rfl).goesOn s

theorem update_onFoot {s : FrameSignals D} (foot : s.onFoot = true) :
    (p.update s).1.inSettlement = false := by
  unfold update
  rw [if_pos foot]
  exact holdOnFoot_outside _ s

end Policy

/-! Runs of the policy. -/

inductive Call (D F : Type) where
  | configure (kMax : F)
  | setFixed (fixed : Bool)
  | reset
  | update (s : FrameSignals D)

def Policy.call {F : Type} [Floats F] (p : Policy D) : Call D F → Policy D
  | .configure kMax => p.configure kMax
  | .setFixed fixed => p.setFixed fixed
  | .reset => p.reset
  | .update s => (p.update s).1

def Policy.after {F : Type} [Floats F] (calls : List (Call D F)) : Policy D :=
  calls.foldl Policy.call .init

theorem Policy.Ranged.call {F : Type} [Floats F] {p : Policy D} (ranged : p.Ranged) (c : Call D F) :
    (p.call c).Ranged := by
  cases c with
  | configure kMax => exact ranged.configure kMax
  | setFixed fixed => exact ranged.setFixed fixed
  | reset => exact ranged.reset
  | update s => exact (ranged.update s).toRanged

theorem Policy.after_ranged {F : Type} [Floats F] (calls : List (Call D F)) :
    (Policy.after calls : Policy D).Ranged := by
  unfold after
  generalize hp : (init : Policy D) = p
  have ranged : p.Ranged := hp ▸ init_ranged
  clear hp
  induction calls generalizing p with
  | nil => exact ranged
  | cons c _ ih => exact ih (p.call c) (ranged.call c)

/-- Whatever was called before, an update leaves k between 1 and k_max, and above 1 only
in a settlement and not on foot; what could raise k later is held in a settlement only,
and the counters of the ring count its samples. -/
theorem detail_stays_in_range {F : Type} [Floats F] (calls : List (Call D F)) (s : FrameSignals D) :
    let p := ((Policy.after calls : Policy D).update s).1
    (0 ≤ p.steps ∧ p.steps ≤ p.maxSteps) ∧
      (0 < p.steps → p.inSettlement = true ∧ s.onFoot = false) ∧
      (0 ≤ p.trials.good ∨ p.trials.kickTrial = true ∨ p.trials.relaxing = true → p.inSettlement = true) ∧
      (p.ring.ring.latest.length = p.ring.ring.count ∧
        p.ring.missCount = p.ring.ring.latest.countP Sample.miss ∧
        p.ring.gpuCount = p.ring.ring.latest.countP Sample.gpu ∧
        p.ring.unexCount = p.ring.ring.latest.countP Sample.unex) := by
  have settled := (Policy.after_ranged calls).update s
  have foot := @Policy.update_onFoot D _ (Policy.after calls) s
  generalize ((Policy.after calls : Policy D).update s).1 = p at settled foot ⊢
  have inside : p.inSettlement = true ∨ Idle p.steps p.trials := by
    cases place : p.inSettlement with
    | true => exact .inl rfl
    | false => exact .inr (settled.inside place)
  refine ⟨⟨settled.steps, settled.bound⟩, fun above => ?_, fun kept => ?_, ?_⟩
  · obtain place | idle := inside
    · refine ⟨place, ?_⟩
      cases foot' : s.onFoot with
      | true => exact nomatch (foot foot').symm.trans place
      | false => rfl
    · have := idle.steps
      omega
  · obtain place | idle := inside
    · exact place
    · obtain good | trial | relaxing := kept
      · exact absurd good (Int.not_le.mpr idle.good)
      · exact nomatch idle.kickTrial.symm.trans trial
      · exact nomatch idle.relaxing.symm.trans relaxing
  · exact ⟨Ring.length_latest _, settled.counted.miss, settled.counted.gpu, settled.counted.unex⟩

end

end EdvrPatch.Lod
