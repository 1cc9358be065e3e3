import EdvrPatch.Cull.ProvenRebuild

/-! The nudge. What the game is told is measured against the ask in every state, and at
each decision against the heights it was told since it last had to build anew. -/
namespace EdvrPatch.Cull

open Lib

/-- A frustum that goes through has a size for each eye, on both axes. -/
structure Priced (math : CullMath) : Prop where
  sized : ∀ settings frusta dims w, math.computeWidened settings frusta dims = some w →
    math.recommendedDim dims.left.width w.maxFactorW ≠ 0 ∧ math.recommendedDim dims.left.height w.maxFactorH ≠ 0 ∧
    math.recommendedDim dims.right.width w.maxFactorW ≠ 0 ∧ math.recommendedDim dims.right.height w.maxFactorH ≠ 0

namespace NativeCullGuard

variable (math : CullMath)

def priced (g : NativeCullGuard) : Eyes NativeCullDimensions × Binary32 × Binary32 × Nat :=
  (g.runtime, g.maxFactorW, g.maxFactorH, g.nudgeHeight)

def askHeight (g : NativeCullGuard) : Nat := (g.trueRecommended math).left.height

def toldHeight (g : NativeCullGuard) : Nat := (g.recommended math).left.height

/-- What a decision makes of the nudge, with the floor it was measured against. -/
inductive Nudges (g : NativeCullGuard) : NativeCullGuard → Prop where
  | plain (nudge : NativeCullNudge)
      (is : nudge = .first ∨ nudge = .same ∨ nudge = .taller ∨ nudge = .capped) :
      Nudges g { g with nudgeHeight := 0, nudgeFloor := g.floor, nudge := nudge }
  | shrink (positive : g.floor ≠ 0) (lower : g.askHeight math < g.floor) :
      Nudges g { g with nudgeHeight := 0, nudgeFloor := g.floor, nudge := .shrink }
  | started (dip : Nat) (isDip : dip + 2 = g.floor) (enough : 16 ≤ dip) (upper : g.floor ≤ g.askHeight math)
      (limit : g.askHeight math ≤ dip + kNativeCullNudgeMaxPx) :
      Nudges g { g with nudgeHeight := dip, nudgeFloor := g.floor, nudge := .started }

theorem startNudge_nudges (g : NativeCullGuard) : Nudges math g (g.startNudge math) := by
  unfold startNudge
  dsimp only
  generalize isDip : (if kNativeCullNudgePx < g.floor then g.floor - kNativeCullNudgePx else 0) = dip
  split
  · exact .plain .first (.inl rfl)
  rename_i known
  split
  · exact .plain .same (.inr (.inl rfl))
  split
  · rename_i lower
    exact .shrink (fun none => known (.inl none)) lower
  rename_i upper
  split
  · exact .plain .taller (.inr (.inr (.inl rfl)))
  split
  · exact .plain .capped (.inr (.inr (.inr rfl)))
  · rename_i within
    obtain ⟨enough, limit⟩ := not_or.mp within
    have bound : kNativeCullNudgePx = 2 := rfl
    have limit : ¬kNativeCullNudgeMaxPx < g.askHeight math - dip := limit
    have deep : dip + 2 = g.floor := by
      split at isDip <;> omega
    exact .started dip deep (Nat.not_lt.mp enough) (Nat.not_lt.mp upper) (by omega)

inductive Moves (g : NativeCullGuard) : NativeCullGuard → Prop where
  /-- The game is told the runtime's own size. -/
  | idle (m : NativeCullGuard) (off : m.asking = false) (quiet : m.nudge = .none) (floor : m.floor = g.floor) :
      Moves g m
  /-- The ask stays. At a promotion the floor starts over. -/
  | kept (m : NativeCullGuard) (asked : g.asking = true) (asking : m.asking = true) (quiet : m.nudge = .none)
      (same : m.priced = g.priced)
      (floor : m.stage = g.stage ∧ m.floor = g.floor ∨ g.stage = .adopting ∧ m.stage = .live ∧ m.floor = 0) :
      Moves g m
  /-- An adoption is entered. At a first ask the floor starts over. -/
  | entered (e m : NativeCullGuard) (ask : Eyes NativeCullDimensions) (adopting : e.stage = .adopting)
      (computed : ∃ settings frusta w, math.computeWidened settings frusta e.runtime = some w ∧
        e.maxFactorH = w.maxFactorH)
      (floor : e.floor = if e.route = .firstAsk then 0 else g.floor) (nudges : Nudges math e m) :
      Moves g { m with pendingAsk := ask }

variable {math} {g : NativeCullGuard}

variable {e : NativeCullGuard}

theorem startAdopting_moves (sameFloor : e.floor = g.floor) {w : Widened}
    (computed : math.computeWidened e.settings e.trueFrusta e.runtime = some w) (sizeAsked : Bool) :
    Moves math g (e.startAdopting math w sizeAsked) := by
  unfold startAdopting
  extract_lets started fresh based nudged
  have nudges : Nudges math based nudged := startNudge_nudges math based
  have isBased : based.stage = .adopting ∧ based.runtime = e.runtime ∧ based.maxFactorH = w.maxFactorH ∧
      based.floor = if based.route = .firstAsk then 0 else g.floor := by
    unfold based
    split
    · exact ⟨rfl, rfl, rfl, rfl⟩
    · split <;> exact ⟨rfl, rfl, rfl, sameFloor⟩
  obtain ⟨adopting, runtime, factor, floor⟩ := isBased
  have priced : ∃ settings frusta w, math.computeWidened settings frusta based.runtime = some w ∧
      based.maxFactorH = w.maxFactorH := ⟨_, _, w, by rw [runtime]; exact computed, factor⟩
  split
  · exact .entered based nudged _ adopting priced floor nudges
  · exact .entered based nudged nudged.pendingAsk adopting priced floor nudges

theorem adopt_moves (sameFloor : e.floor = g.floor) (quiet : e.nudge = .none) (f : FrameInput) :
    Moves math g (e.adopt math f) := by
  unfold adopt
  split
  · exact .idle _ rfl quiet sameFloor
  split
  · exact .idle _ rfl quiet sameFloor
  · rename_i w computed
    exact startAdopting_moves sameFloor computed f.sizeAsked

theorem judge_floor (math : CullMath) (g : NativeCullGuard) : (g.judge math).nudge = g.nudge ∧ (g.judge math).priced = g.priced ∧
    ((g.judge math).stage = g.stage ∧ (g.judge math).floor = g.floor ∨
      g.stage = .adopting ∧ (g.judge math).stage = .live ∧ (g.judge math).floor = 0) := by
  unfold judge
  split
  · extract_lets counted first promoted
    have isCounted : counted.nudge = g.nudge ∧ counted.priced = g.priced ∧ counted.stage = g.stage ∧
        counted.floor = g.floor := by
      unfold counted
      split <;> exact ⟨rfl, rfl, rfl, rfl⟩
    obtain ⟨nudge, priced, stage, floor⟩ := isCounted
    have isFirst : first.nudge = g.nudge ∧ first.priced = g.priced ∧
        (first.stage = g.stage ∧ first.floor = g.floor ∨
          g.stage = .adopting ∧ first.stage = .live ∧ first.floor = 0) := by
      unfold first
      split
      · rename_i met
        exact ⟨nudge, priced, .inr ⟨stage.symm.trans met.1, rfl, rfl⟩⟩
      · exact ⟨nudge, priced, .inl ⟨stage, floor⟩⟩
    obtain ⟨nudge, priced, floor⟩ := isFirst
    have isPromoted : promoted.nudge = g.nudge ∧ promoted.priced = g.priced ∧
        (promoted.stage = g.stage ∧ promoted.floor = g.floor ∨
          g.stage = .adopting ∧ promoted.stage = .live ∧ promoted.floor = 0) := by
      unfold promoted
      split
      · rename_i met
        have adopting : g.stage = .adopting := by
          rcases floor with ⟨same, _⟩ | ⟨adopting, _⟩
          · exact same.symm.trans met.1
          · exact adopting
        exact ⟨nudge, priced, .inr ⟨adopting, rfl, rfl⟩⟩
      · exact ⟨nudge, priced, floor⟩
    exact isPromoted
  · exact ⟨rfl, rfl, .inl ⟨rfl, rfl⟩⟩

theorem beginFrame_moves (math : CullMath) (g : NativeCullGuard) (f : FrameInput) :
    ∃ m, Moves math g m ∧ g.beginFrame math f = m.finish math := by
  unfold beginFrame
  split
  · exact ⟨g.forget.turnOff f, .idle _ rfl rfl rfl, rfl⟩
  dsimp only
  have isTaken : (g.forget.takeSettings f).nudge = .none ∧ (g.forget.takeSettings f).floor = g.floor ∧
      ((g.forget.takeSettings f).stage = .off ∨
        (g.forget.takeSettings f).stage = g.stage ∧ (g.forget.takeSettings f).priced = g.priced) := by
    unfold takeSettings
    split
    · exact ⟨rfl, rfl, .inl rfl⟩
    · exact ⟨rfl, rfl, .inr ⟨rfl, rfl⟩⟩
  obtain ⟨quiet, floor, stage⟩ := isTaken
  generalize g.forget.takeSettings f = taken at quiet floor stage
  split
  · exact ⟨taken.takeStandDown, .idle _ rfl quiet floor, rfl⟩
  obtain ⟨judgedQuiet, judgedPriced, judgedFloor⟩ := judge_floor math taken
  generalize taken.judge math = judged at judgedQuiet judgedPriced judgedFloor
  cases asking : judged.asking with
  | true =>
    rw [if_pos (.inr rfl)]
    have on : taken.stage = .adopting ∨ taken.stage = .live := by
      have all := asking
      simp only [NativeCullGuard.asking, Bool.or_eq_true, beq_iff_eq] at all
      rcases judgedFloor with ⟨same, _⟩ | ⟨adopting, _⟩
      · rwa [same] at all
      · exact .inl adopting
    rcases stage with off | ⟨same, priced⟩
    · rw [off] at on
      rcases on with impossible | impossible <;> cases impossible
    · refine ⟨judged, .kept judged ?_ asking (judgedQuiet.trans quiet) (judgedPriced.trans priced) ?_, rfl⟩
      · rw [same] at on
        simp only [NativeCullGuard.asking, Bool.or_eq_true, beq_iff_eq]
        exact on
      · rw [← same, ← floor]
        exact judgedFloor
  | false =>
    have sameFloor : judged.floor = g.floor := by
      rcases judgedFloor with ⟨_, same⟩ | ⟨_, live, _⟩
      · exact same.trans floor
      · simp [NativeCullGuard.asking, live] at asking
    split
    · exact ⟨_, .idle _ asking (judgedQuiet.trans quiet) sameFloor, rfl⟩
    · exact ⟨_, adopt_moves sameFloor (judgedQuiet.trans quiet) f, rfl⟩

/-- While the guard asks, it asks for some height, and the nudge is off or within its limit. -/
structure Nudged (math : CullMath) (g : NativeCullGuard) : Prop where
  positive : g.asking = true → g.askHeight math ≠ 0
  dipped : g.asking = true → g.nudgeHeight = 0 ∨
    g.nudgeHeight < g.askHeight math ∧ g.askHeight math ≤ g.nudgeHeight + kNativeCullNudgeMaxPx

theorem askHeight_of_asking (asking : g.asking = true) :
    g.askHeight math = math.recommendedDim g.runtime.left.height g.maxFactorH := by
  unfold askHeight trueRecommended
  rw [asking]
  rfl

theorem askHeight_of_priced (math : CullMath) {m : NativeCullGuard} (asking : g.asking = true) (still : m.asking = true)
    (same : m.priced = g.priced) : m.askHeight math = g.askHeight math ∧ m.nudgeHeight = g.nudgeHeight := by
  simp only [priced, Prod.mk.injEq] at same
  obtain ⟨runtime, _, factor, nudge⟩ := same
  rw [askHeight_of_asking asking, askHeight_of_asking still, runtime, factor]
  exact ⟨rfl, nudge⟩

theorem toldHeight_eq (g : NativeCullGuard) : g.toldHeight math =
    if g.nudgeHeight ≠ 0 ∧ g.nudgeHeight < g.askHeight math ∧ g.asking then g.nudgeHeight
    else g.askHeight math := by
  show (if _ then _ else _ : NativeCullDimensions).height = _
  split
  · rename_i dips
    exact (if_pos dips).symm
  · rename_i plain
    exact (if_neg plain).symm

theorem Nudges.frame {m : NativeCullGuard} (nudges : Nudges math e m) :
    m.nudge ≠ .none ∧ m.floor = e.floor ∧ m.stage = e.stage ∧ m.route = e.route ∧
    (m.asking = e.asking ∧ m.askHeight math = e.askHeight math) := by
  cases nudges with
  | plain nudge is => exact ⟨by rcases is with rfl | rfl | rfl | rfl <;> nofun, rfl, rfl, rfl, rfl, rfl⟩
  | shrink => exact ⟨nofun, rfl, rfl, rfl, rfl, rfl⟩
  | started => exact ⟨nofun, rfl, rfl, rfl, rfl, rfl⟩

theorem Nudges.dipped {m : NativeCullGuard} (nudges : Nudges math e m) :
    m.nudgeHeight = 0 ∨
      m.nudgeHeight < m.askHeight math ∧ m.askHeight math ≤ m.nudgeHeight + kNativeCullNudgeMaxPx := by
  cases nudges with
  | plain => exact .inl rfl
  | shrink => exact .inl rfl
  | started dip isDip enough upper limit =>
    refine .inr ⟨?_, limit⟩
    show dip < e.askHeight math
    omega

theorem Nudges.under {m : NativeCullGuard} (nudges : Nudges math e m) (asking : m.asking = true)
    (lowers : m.nudge = .started ∨ m.nudge = .shrink) : m.toldHeight math < e.floor := by
  rw [toldHeight_eq]
  cases nudges with
  | plain nudge is => rcases is with rfl | rfl | rfl | rfl <;> rcases lowers with no | no <;> cases no
  | shrink positive lower => exact lower
  | started dip isDip enough upper limit =>
    have deep : dip < e.askHeight math := by omega
    rw [if_pos ⟨(by omega : dip ≠ 0), deep, asking⟩]
    show dip < e.floor
    omega

theorem Nudges.asIs {m : NativeCullGuard} (nudges : Nudges math e m) (plain : m.nudge ≠ .started) :
    m.nudgeHeight = 0 := by
  cases nudges with
  | plain => rfl
  | shrink => rfl
  | started => exact absurd rfl plain

theorem recommended_of_plain (none : g.nudgeHeight = 0) : g.recommended math = g.trueRecommended math := by
  unfold recommended
  rw [none]
  exact congrArg (Eyes.map · (g.trueRecommended math)) (funext fun d => if_neg fun dips => dips.1 rfl)

theorem askHeight_entered (isPriced : Priced math) (adopting : e.stage = .adopting)
    (computed : ∃ settings frusta w, math.computeWidened settings frusta e.runtime = some w ∧ e.maxFactorH = w.maxFactorH) :
    e.askHeight math ≠ 0 := by
  obtain ⟨settings, frusta, w, isW, factor⟩ := computed
  rw [askHeight_of_asking (asking_of_adopting adopting), factor]
  exact (isPriced.sized settings frusta e.runtime w isW).2.1

theorem Moves.nudged (isPriced : Priced math) (h : Nudged math g) {m : NativeCullGuard} (moves : Moves math g m) :
    Nudged math m := by
  cases moves with
  | idle m off =>
    refine ⟨fun asking => ?_, fun asking => ?_⟩
    all_goals
      rw [off] at asking
      cases asking
  | kept m asked asking _ same =>
    obtain ⟨ask, nudge⟩ := askHeight_of_priced math asked asking same
    refine ⟨fun _ => ?_, fun _ => ?_⟩
    · rw [ask]
      exact h.positive asked
    · rw [ask, nudge]
      exact h.dipped asked
  | entered e m ask adopting computed floor nudges =>
    refine ⟨fun _ => ?_, fun _ => nudges.dipped⟩
    show m.askHeight math ≠ 0
    rw [nudges.frame.2.2.2.2.2]
    exact askHeight_entered isPriced adopting computed

theorem Nudged.toldHeight (h : Nudged math g) (asking : g.asking = true) :
    g.toldHeight math ≠ 0 ∧ g.toldHeight math ≤ g.askHeight math ∧
      g.askHeight math ≤ g.toldHeight math + kNativeCullNudgeMaxPx := by
  have positive := h.positive asking
  rw [toldHeight_eq]
  rcases h.dipped asking with none | ⟨lower, limit⟩
  · rw [none, if_neg fun dips => dips.1 rfl]
    omega
  · split
    · rename_i dips
      exact ⟨dips.1, Nat.le_of_lt lower, limit⟩
    · omega

def promoted (g g' : NativeCullGuard) : Bool := g.stage != .live && g'.stage == .live

def firstAsked (g' : NativeCullGuard) : Bool := g'.nudge != .none && g'.route == .firstAsk

def rebased (g g' : NativeCullGuard) : Bool := promoted g g' || firstAsked g'

def Floored (g : NativeCullGuard) (heights : List Nat) : Prop := ∀ h ∈ heights, g.floor ≠ 0 ∧ g.floor ≤ h

variable {heights : List Nat}

theorem Floored.finish {m : NativeCullGuard} (h : Floored m heights) (asking : m.asking = true)
    (told : m.toldHeight math ≠ 0) : Floored (m.finish math) (heights ++ [m.toldHeight math]) := by
  have floor : (m.finish math).floor =
      if m.floor = 0 ∨ m.toldHeight math < m.floor then m.toldHeight math else m.floor := by
    unfold NativeCullGuard.finish
    rw [asking]
    refine if_congr ?_ rfl rfl
    show _ ↔ m.floor = 0 ∨ (m.recommended math).left.height < m.floor
    have told : (m.recommended math).left.height ≠ 0 := told
    simp [told]
  intro height mem
  rw [floor]
  rcases List.mem_append.mp mem with old | new
  · obtain ⟨positive, le⟩ := h height old
    split
    · exact ⟨told, by omega⟩
    · exact ⟨positive, le⟩
  · rw [List.mem_singleton.mp new]
    split <;> omega

theorem Moves.floored (isPriced : Priced math) (nudged : Nudged math g) (h : Floored g heights)
    {m : NativeCullGuard} (moves : Moves math g m) :
    Floored (m.finish math) ((if rebased g m then [] else heights) ++
      if m.asking then [m.toldHeight math] else []) := by
  have told : m.asking = true → m.toldHeight math ≠ 0 := fun asking =>
    ((moves.nudged isPriced nudged).toldHeight asking).1
  cases moves with
  | idle m off quiet floor =>
    have still : rebased g m = false := by
      simp only [asking, Bool.or_eq_false_iff] at off
      simp [rebased, promoted, firstAsked, quiet, off.2]
    rw [still, off]
    have same : (m.finish math).floor = m.floor := by
      unfold finish
      rw [off]
      rfl
    simp only [Bool.false_eq_true, if_false, List.append_nil]
    intro height mem
    rw [same, floor]
    exact h height mem
  | kept m asked asking quiet same floor =>
    rw [asking, if_pos rfl]
    refine Floored.finish ?_ asking (told asking)
    rcases floor with ⟨_, floor⟩ | ⟨adopting, live, _⟩
    · split
      · nofun
      · intro height mem
        rw [floor]
        exact h height mem
    · have restarts : rebased g m = true := by simp [rebased, promoted, adopting, live]
      rw [restarts]
      nofun
  | entered e m ask adopting computed floor nudges =>
    obtain ⟨some, sameFloor, stage, route, _⟩ := nudges.frame
    have asking : m.asking = true := asking_of_adopting (stage.trans adopting)
    have joins : ({ m with pendingAsk := ask } : NativeCullGuard).asking = true := asking
    rw [joins, if_pos rfl]
    refine Floored.finish (m := { m with pendingAsk := ask }) ?_ asking (told asking)
    by_cases first : e.route = .firstAsk
    · have restarts : rebased g { m with pendingAsk := ask } = true := by
        simp [rebased, firstAsked, some, route, first]
      rw [restarts]
      nofun
    · rw [if_neg first] at floor
      split
      · nofun
      · intro height mem
        show m.floor ≠ 0 ∧ m.floor ≤ height
        rw [sameFloor, floor]
        exact h height mem

theorem Moves.under (h : Floored g heights) {m : NativeCullGuard} (moves : Moves math g m)
    (lowers : m.nudge = .started ∨ m.nudge = .shrink) :
    ∀ height ∈ heights, m.toldHeight math < height := by
  intro height mem
  cases moves with
  | idle m _ quiet => rcases lowers with is | is <;> rw [quiet] at is <;> cases is
  | kept m _ _ quiet => rcases lowers with is | is <;> rw [quiet] at is <;> cases is
  | entered e m ask adopting computed floor nudges =>
    have asking : m.asking = true := asking_of_adopting (nudges.frame.2.2.1.trans adopting)
    have under : m.toldHeight math < e.floor := nudges.under asking lowers
    rw [floor] at under
    split at under
    · exact absurd under (Nat.not_lt_zero _)
    · exact Nat.lt_of_lt_of_le under (h height mem).2

theorem Moves.asIs {m : NativeCullGuard} (moves : Moves math g m) (some : m.nudge ≠ .none)
    (plain : m.nudge ≠ .started) : m.recommended math = m.trueRecommended math := by
  cases moves with
  | idle m _ quiet => exact absurd quiet some
  | kept m _ _ quiet => exact absurd quiet some
  | entered e m ask _ _ _ nudges => exact recommended_of_plain (nudges.asIs plain)

end NativeCullGuard

open NativeCullGuard

/-- The heights that the left eye was told in an adoption or live, since a frame restarted
the list. -/
def heightsTold (math : CullMath) (restarts : NativeCullGuard → NativeCullGuard → Bool) (calls : List CullCall) :
    List Nat :=
  (calls.foldl (fun (state : NativeCullGuard × List Nat) call =>
    let g := state.1.step math call
    (g, match call with
      | .beginFrame _ => (if restarts state.1 g then [] else state.2) ++
          if g.asking then [g.toldHeight math] else []
      | _ => state.2)) ({}, [])).2

/-- What is told against what is asked, eye by eye. The limit is the left eye's. -/
structure WithinLimit (math : CullMath) (g : NativeCullGuard) : Prop where
  leftWidth : (g.recommended math).left.width = (g.trueRecommended math).left.width
  rightWidth : (g.recommended math).right.width = (g.trueRecommended math).right.width
  leftUpper : (g.recommended math).left.height ≤ (g.trueRecommended math).left.height
  leftLower : (g.trueRecommended math).left.height ≤ (g.recommended math).left.height + kNativeCullNudgeMaxPx
  rightUpper : (g.recommended math).right.height ≤ (g.trueRecommended math).right.height
  rightLower : (g.recommended math).right.height = (g.trueRecommended math).right.height ∨
    (g.trueRecommended math).left.height ≤ (g.recommended math).right.height + kNativeCullNudgeMaxPx

section

variable {math : CullMath}

theorem NativeCullGuard.Nudged.withinLimit {g : NativeCullGuard} (h : Nudged math g) : WithinLimit math g := by
  have eye : ∀ d : NativeCullDimensions,
      (if g.nudgeHeight ≠ 0 ∧ g.nudgeHeight < d.height ∧ g.asking then { d with height := g.nudgeHeight }
        else d).width = d.width ∧
      (if g.nudgeHeight ≠ 0 ∧ g.nudgeHeight < d.height ∧ g.asking then { d with height := g.nudgeHeight }
        else d).height ≤ d.height ∧
      ((if g.nudgeHeight ≠ 0 ∧ g.nudgeHeight < d.height ∧ g.asking then { d with height := g.nudgeHeight }
        else d).height = d.height ∨ g.askHeight math ≤
        (if g.nudgeHeight ≠ 0 ∧ g.nudgeHeight < d.height ∧ g.asking then { d with height := g.nudgeHeight }
          else d).height + kNativeCullNudgeMaxPx) := by
    intro d
    split
    · rename_i dips
      refine ⟨rfl, Nat.le_of_lt dips.2.1, .inr ?_⟩
      rcases h.dipped dips.2.2 with none | ⟨_, limit⟩
      · exact absurd none dips.1
      · exact limit
    · exact ⟨rfl, Nat.le_refl _, .inl rfl⟩
  obtain ⟨leftWidth, leftUpper, leftLower⟩ := eye (g.trueRecommended math).left
  obtain ⟨rightWidth, rightUpper, rightLower⟩ := eye (g.trueRecommended math).right
  refine ⟨leftWidth, rightWidth, leftUpper, ?_, rightUpper, rightLower⟩
  rcases leftLower with same | limit
  · exact Nat.le_add_right_of_le (Nat.le_of_eq same.symm)
  · exact limit

theorem heightsTold_concat (restarts : NativeCullGuard → NativeCullGuard → Bool) (calls : List CullCall)
    (call : CullCall) : heightsTold math restarts (calls ++ [call]) =
      match call with
      | .beginFrame _ =>
        (if restarts (guardAfter math calls) (guardAfter math (calls ++ [call])) then []
          else heightsTold math restarts calls) ++
        if (guardAfter math (calls ++ [call])).asking then [(guardAfter math (calls ++ [call])).toldHeight math]
          else []
      | _ => heightsTold math restarts calls := by
  have first : ∀ calls : List CullCall, (calls.foldl (fun (state : NativeCullGuard × List Nat) call =>
      let g := state.1.step math call
      (g, match call with
        | .beginFrame _ => (if restarts state.1 g then [] else state.2) ++
            if g.asking then [g.toldHeight math] else []
        | _ => state.2)) ({}, [])).1 = guardAfter math calls := by
    intro calls
    induction calls using List.reverseRecOn with
    | nil => rfl
    | append_singleton calls call ih =>
      rw [List.foldl_append, guardAfter_concat, ← ih]
      rfl
  rw [guardAfter_concat, ← first calls]
  unfold heightsTold
  rw [List.foldl_append]
  cases call <;> rfl

theorem nudged_run (isPriced : Priced math) (calls : List CullCall) :
    Nudged math (guardAfter math calls) ∧
    Floored (guardAfter math calls) (heightsTold math rebased calls) := by
  induction calls using List.reverseRecOn with
  | nil => exact ⟨⟨nofun, nofun⟩, nofun⟩
  | append_singleton calls call ih =>
    obtain ⟨nudged, floored⟩ := ih
    rw [heightsTold_concat, guardAfter_concat]
    generalize guardAfter math calls = g at nudged floored
    cases call with
    | beginFrame f =>
      obtain ⟨m, moves, same⟩ := beginFrame_moves math g f
      show Nudged math (g.beginFrame math f) ∧ Floored (g.beginFrame math f)
        ((if rebased g (g.beginFrame math f) then [] else _) ++
          if (g.beginFrame math f).asking then [(g.beginFrame math f).toldHeight math] else [])
      rw [same]
      have kept := moves.nudged isPriced nudged
      exact ⟨⟨kept.positive, kept.dipped⟩, moves.floored isPriced nudged floored⟩
    | noteSubmittedSize eye width height =>
      show Nudged math (g.noteSubmittedSize eye width height) ∧ Floored (g.noteSubmittedSize eye width height) _
      rcases noteSubmittedSize_cases g eye width height with
        same | ⟨_, _, _, _, _, _, _, ⟨same, _⟩ | ⟨_, ⟨_, same⟩ | same⟩⟩
      all_goals
        rw [same]
        exact ⟨⟨nudged.positive, nudged.dipped⟩, floored⟩
    | standDown => exact ⟨⟨nudged.positive, nudged.dipped⟩, floored⟩

end

/-- In every state what is told is within the limit of the ask. A frame that starts a nudge
or finds the height lowered tells the left eye less than all it was told since the last
promotion or first ask, and one that decides otherwise tells the ask. -/
theorem nudge_limited (math : CullMath) (isPriced : Priced math) (calls : List CullCall) :
    WithinLimit math (guardAfter math calls) ∧
    ∀ f, let g := guardAfter math (calls ++ [CullCall.beginFrame f])
      (g.nudge = .started ∨ g.nudge = .shrink →
        ∀ height ∈ heightsTold math rebased calls, g.toldHeight math < height) ∧
      (g.nudge = .taller ∨ g.nudge = .same ∨ g.nudge = .first ∨ g.nudge = .capped →
        g.recommended math = g.trueRecommended math) := by
  obtain ⟨nudged, floored⟩ := nudged_run isPriced calls
  refine ⟨nudged.withinLimit, fun f => ?_⟩
  rw [guardAfter_concat]
  generalize guardAfter math calls = g at nudged floored
  obtain ⟨m, moves, same⟩ := beginFrame_moves math g f
  show ((g.beginFrame math f).nudge = .started ∨ (g.beginFrame math f).nudge = .shrink →
      ∀ height ∈ _, (g.beginFrame math f).toldHeight math < height) ∧
    ((g.beginFrame math f).nudge = .taller ∨ (g.beginFrame math f).nudge = .same ∨
      (g.beginFrame math f).nudge = .first ∨ (g.beginFrame math f).nudge = .capped →
      (g.beginFrame math f).recommended math = (g.beginFrame math f).trueRecommended math)
  rw [same]
  refine ⟨fun lowers => moves.under floored lowers, fun decided => ?_⟩
  refine moves.asIs ?_ ?_
  all_goals
    intro is
    rcases decided with no | no | no | no <;> exact absurd (is.symm.trans no) (by decide)

/-- The vertical factor and the lower and upper edge for a trim of 20, 10 or 15 degrees off an
edge at 45, and for a margin of eight percent. -/
def sampleFactor (settings : NativeCullSettings) : Binary32 × Binary32 × Binary32 :=
  if settings.trimVerticalDeg = 0x41a00000 then (0x3eeebfe1, 0xbeeebfe1, 0x3eeebfe1)
  else if settings.trimVerticalDeg = 0x41200000 then (0x3f3340cd, 0xbf3340cd, 0x3f3340cd)
  else if settings.trimVerticalDeg = 0x41700000 then (0x3f13cd3a, 0xbf13cd3a, 0x3f13cd3a)
  else (0x3f8a3d71, 0xbf8a3d71, 0x3f8a3d71)

def sampleScale (factor : Binary32) : Nat :=
  if factor = 0x3eeebfe1 then 46630766
  else if factor = 0x3f3340cd then 70020753
  else if factor = 0x3f13cd3a then 57735026
  else if factor = 0x3f8a3d71 then 108000004
  else 100000000

def sampleDim (v : Nat) (factor : Binary32) : Nat :=
  gameFacingDimension ((v * sampleScale factor + 50000000) / 100000000)

def sampleWidened (settings : NativeCullSettings) : Widened :=
  let (factor, down, up) := sampleFactor settings
  let wide : Bool := factor == 0x3f8a3d71
  let lied : NativeCullFrustum :=
    { left := if wide then 0xbf8a3d71 else 0xbf800000, right := if wide then 0x3f8a3d71 else 0x3f800000
      down := down, up := up }
  let target : NativeCullFrustum := if wide then ⟨0xbf800000, 0x3f800000, 0xbf800000, 0x3f800000⟩ else lied
  let across : Binary32 := if wide then factor else 0x3f800000
  ⟨⟨target, target⟩, ⟨lied, lied⟩, ⟨across, across⟩, ⟨factor, factor⟩, across, factor⟩

/-- The arithmetic for an eye whose edges are all at 45 degrees, at the settings below. -/
def sampleMath : CullMath where
  computeWidened := fun settings _ dims =>
    let w := sampleWidened settings
    if sampleDim dims.left.width w.maxFactorW ≠ 0 ∧ sampleDim dims.left.height w.maxFactorH ≠ 0 ∧
        sampleDim dims.right.width w.maxFactorW ≠ 0 ∧ sampleDim dims.right.height w.maxFactorH ≠ 0 then some w
    else none
  recommendedDim := sampleDim
  canonicalDim := fun v _ => v
  askMoved := fun ask was => ask != was
  reached := fun submitted baseline _ _ => submitted == baseline
  inside := fun _ _ => {}

theorem sampleMath_priced : Priced sampleMath := by
  refine ⟨fun settings frusta dims w computed => ?_⟩
  unfold sampleMath at computed
  dsimp only at computed
  split at computed
  · rename_i sized
    cases computed
    exact sized
  · cases computed

/-- The right eye is taller than the left, and the width changes after the first frame. -/
def tallRight (width : Nat) : FrameInput :=
  { plainFrame with runtimeDims := ⟨⟨width, 2000⟩, ⟨width, 2100⟩⟩ }

def trimmedFrame (trim : Binary32) (sizeAsked : Bool) : FrameInput :=
  { plainFrame with settings := { trimVerticalDeg := trim }, sizeAsked := sizeAsked }

def widerRight : List CullCall := [.beginFrame (tallRight 2000), .beginFrame (tallRight 2100)]

def twoFirstAsks : List CullCall :=
  [.beginFrame (trimmedFrame 0x41a00000 false), .beginFrame (trimmedFrame 0x41200000 false)]

theorem nudge_limited_widerRight : (guardAfter sampleMath widerRight).nudge = .started ∧
    (guardAfter sampleMath widerRight).toldHeight sampleMath = 2158 ∧
    heightsTold sampleMath rebased [.beginFrame (tallRight 2000)] = [2160] ∧
    WithinLimit sampleMath (guardAfter sampleMath widerRight) ∧
    ∀ height ∈ heightsTold sampleMath rebased [.beginFrame (tallRight 2000)],
      (guardAfter sampleMath widerRight).toldHeight sampleMath < height := by
  have limited := nudge_limited sampleMath sampleMath_priced
  have started : (guardAfter sampleMath widerRight).nudge = .started := by decide +kernel
  exact ⟨started, by decide +kernel, by decide +kernel, (limited widerRight).1,
    ((limited [.beginFrame (tallRight 2000)]).2 (tallRight 2100)).1 (.inl started)⟩

/-- The dip is measured on the left eye and costs the right one 110 rows. Two first asks
raise the height, and the shrink after them is told more than at the first. -/
theorem nudge_beyond_limit :
    ((guardAfter sampleMath widerRight).recommended sampleMath).right.height + kNativeCullNudgeMaxPx <
      ((guardAfter sampleMath widerRight).trueRecommended sampleMath).right.height ∧
    (guardAfter sampleMath (twoFirstAsks ++ [CullCall.beginFrame (trimmedFrame 0x41700000 true)])).nudge = .shrink ∧
    ∃ height ∈ heightsTold sampleMath promoted twoFirstAsks, height ≤
      (guardAfter sampleMath (twoFirstAsks ++ [CullCall.beginFrame (trimmedFrame 0x41700000 true)])).toldHeight
        sampleMath := by
  decide +kernel

end EdvrPatch.Cull
