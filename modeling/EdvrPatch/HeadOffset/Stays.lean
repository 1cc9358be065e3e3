import EdvrPatch.HeadOffset.Gate

/-! When the gate lets a stay in the camera begin. What the frames before have drawn is
read off the calls alone, and the counters of the gate are measured against it. -/
namespace EdvrPatch.HeadOffset

namespace GateCall

def frame? : GateCall → Option GateFrame
  | .frame f => some f
  | _ => none

end GateCall

def framesOf (calls : List GateCall) : List GateFrame := calls.filterMap GateCall.frame?

def gapOf (calls : List GateCall) : List GateFrame :=
  (framesOf calls).foldl (fun gap f => if f.panelDraws = 0 then gap ++ [f] else []) []

def panelFrames (calls : List GateCall) : Nat :=
  (framesOf calls).countP fun f => decide (0 < f.panelDraws)

/-- The clock does not go back within the frame. From call to call it may. -/
structure Clocked (f : GateFrame) : Prop where
  forward : ∀ i j, i ≤ j → f.now i ≤ f.now j
  fits : ∀ i, f.now i < 2 ^ 64

/-- The frame comes more than the credit's time after the panel has stopped. -/
def Late (before : List GateCall) (f : GateFrame) : Prop :=
  ∃ first ∈ (gapOf before).head?, first.now 5 + kPanelRunOverMs < f.now 0

namespace Gate

/-- A stay in the camera begins: one is counted, or the player is in the camera who was
not before. -/
def Begins (g : Gate) (f : GateFrame) : Prop :=
  (g.headOffsetGateFrame f).gateCameraEnters ≠ g.gateCameraEnters ∨
    g.gateInCamera = false ∧ (g.headOffsetGateFrame f).gateInCamera = true

def Keyless (g : Gate) (f : GateFrame) : Prop :=
  g.autoIntent (f.now 6) = true ∧ elapsedMs (f.now 9) g.panelStoppedMs kKeylessEnterMs = false

end Gate

structure ProperFrame (cfg : GateConfig) (before : List GateCall) (f : GateFrame) : Prop where
  published : ((gateAfter cfg before).headOffsetGateFrame f).published =
    ((gateAfter cfg before).headOffsetGateFrame f).gateExternal
  within : ((gateAfter cfg before).headOffsetGateFrame f).gateExternal = true →
    ((gateAfter cfg before).headOffsetGateFrame f).gateInCamera = true
  panel : 0 < f.panelDraws → ((gateAfter cfg before).headOffsetGateFrame f).published = false
  scene : (gateAfter cfg before).Begins f → kSceneDraws < f.eyeDraws
  absent : (gateAfter cfg before).Begins f → f.panelDraws = 0 ∧ 7 ≤ (gapOf before).length
  settled : (gateAfter cfg before).Begins f → ∀ first rest, before = first ++ rest →
    (gateAfter cfg first).gatePanelRun = 0 → 30 < panelFrames rest
  asked : (gateAfter cfg before).Begins f →
    ((gateAfter cfg before).gateKeyBound = true ∧ (gateAfter cfg before).gateIntent = true) ∨
      (gateAfter cfg before).Keyless f

def Prompt (cfg : GateConfig) (before : List GateCall) (f : GateFrame) : Prop :=
  (gateAfter cfg before).Begins f → ¬Late before f

/-- No frame of this gap has come so late before, but for those the player left with. -/
def FirstLate (cfg : GateConfig) (before : List GateCall) (f : GateFrame) : Prop :=
  f.panelDraws = 0 ∧ Late before f ∧ ∀ first e rest, before = first ++ GateCall.frame e :: rest →
    e.panelDraws = 0 → panelFrames rest = 0 → Late first e → (gateAfter cfg first).leavesByKey = true

/-- The first frame of a gap that comes too late does not pass the test for a stay. -/
def OnTime (cfg : GateConfig) (before : List GateCall) (f : GateFrame) : Prop :=
  FirstLate cfg before f → ((gateAfter cfg before).countGap f.now).enters f.eyeDraws f.now = false

section

variable {cfg : GateConfig} {calls before first rest : List GateCall} {call : GateCall} {f : GateFrame}

theorem gateAfter_snoc (cfg : GateConfig) (calls : List GateCall) (call : GateCall) :
    gateAfter cfg (calls ++ [call]) = (gateAfter cfg calls).step call := by
  simp [gateAfter, List.foldl_append]

theorem gapOf_frame (calls : List GateCall) (f : GateFrame) :
    gapOf (calls ++ [GateCall.frame f]) = if f.panelDraws = 0 then gapOf calls ++ [f] else [] := by
  simp [gapOf, framesOf, List.filterMap_append, GateCall.frame?]

theorem gapOf_other (isOther : call.frame? = none) : gapOf (calls ++ [call]) = gapOf calls := by
  simp [gapOf, framesOf, List.filterMap_append, isOther]

theorem panelFrames_append (first rest : List GateCall) :
    panelFrames (first ++ rest) = panelFrames first + panelFrames rest := by
  simp [panelFrames, framesOf, List.filterMap_append, List.countP_append]

theorem panelFrames_frame (f : GateFrame) :
    panelFrames [.frame f] = if 0 < f.panelDraws then 1 else 0 := by
  simp [panelFrames, framesOf, GateCall.frame?, List.countP_singleton]

end

namespace Gate

def counts (g : Gate) : Bool × Nat × Nat × Nat × Nat :=
  (g.wantsPanel, g.gatePanelRun, g.gateSincePanel, g.panelStoppedMs, g.gateCameraEnters)

def stay (g : Gate) : (Bool × Nat × Nat × Nat × Nat) × Bool := (g.counts, g.gateInCamera)

variable {g a b : Gate} {f : GateFrame} {now : Nat → Nat}

theorem either {β : Type} (field : Gate → β) {p : Prop} [Decidable p] {x : β} (yes : field a = x)
    (no : field b = x) : field (if p then a else b) = x := by
  split
  · exact yes
  · exact no

theorem newFootSession_stay (g : Gate) (journalSaysSo : Bool) (now : Nat → Nat) :
    (g.headOffsetGateNewFootSession journalSaysSo now).stay = g.stay := by
  have graced : (if journalSaysSo then { g with footGraceJournal := true, footGraceMs := stampMs (now 0) }
      else g).stay = g.stay := either stay rfl rfl
  have passed : ∀ d : Gate, (if elapsedMs (now 1) d.lastFootResetMs kNewFootSessionMs then
      { d with lastFootResetMs := 0 } else d).stay = d.stay := fun d => either stay rfl rfl
  exact either stay ((passed _).trans graced) ((passed _).trans graced)

theorem step_other {call : GateCall} (isOther : call.frame? = none) (g : Gate) :
    (g.step call).stay = g.stay := by
  match call with
  | .keyPressed _ => rfl
  | .stepView _ => rfl
  | .setOnFootLive _ _ _ => rfl
  | .setWakeLive known _ _ => exact either stay rfl rfl
  | .newFootSession journalSaysSo now => exact newFootSession_stay g journalSaysSo now
  | .noteEmbark => rfl
  | .setView _ => rfl
  | .setKeyBound _ => rfl

theorem expireIntent_same {β : Type} (field : Gate → β) (g : Gate) (now : Nat → Nat)
    (same : field g.clearIntent = field g) : field (g.expireIntent now) = field g :=
  either field same rfl

theorem settle_stay (g : Gate) (now : Nat → Nat) : (g.readView.publish.expireIntent now).stay = g.stay := by
  have noted : (if 0 ≤ g.viewOverride then { g with gateViewEverRead := true } else g).stay = g.stay :=
    either stay rfl rfl
  have read : g.readView.stay = g.stay := either stay noted noted
  exact (expireIntent_same stay _ now rfl).trans read

theorem settle_published (g : Gate) (now : Nat → Nat) :
    (g.readView.publish.expireIntent now).published = (g.readView.publish.expireIntent now).gateExternal ∧
    ((g.readView.publish.expireIntent now).gateExternal = true → g.gateInCamera = true) := by
  have same : g.readView.gateInCamera = g.gateInCamera :=
    either gateInCamera (either gateInCamera rfl rfl) (either gateInCamera rfl rfl)
  rw [expireIntent_same published _ now rfl, expireIntent_same gateExternal _ now rfl, ← same]
  exact ⟨rfl, fun on => (Bool.and_eq_true_iff.mp on).1⟩

theorem panelFrame_stay (g : Gate) (now : Nat → Nat) : ∃ run ≤ g.gatePanelRun + 1,
    (g.panelFrame now).stay = ((g.wantsPanel, run, 0, 0, g.gateCameraEnters), false) := by
  have begun : (if elapsedMs (now 0) g.awaySceneMs kNewFootSessionMs then
      g.headOffsetGateNewFootSession false fun k => now (1 + k) else g).stay = g.stay :=
    either stay (newFootSession_stay g false _) rfl
  unfold panelFrame
  generalize (if elapsedMs (now 0) g.awaySceneMs kNewFootSessionMs then
      g.headOffsetGateNewFootSession false fun k => now (1 + k) else g) = d at begun
  simp only [stay, counts, Prod.mk.injEq] at begun
  obtain ⟨⟨wants, run, _, _, enters⟩, _⟩ := begun
  refine ⟨if d.gatePanelRun < 10000 then d.gatePanelRun + 1 else d.gatePanelRun, ?_, ?_⟩
  · rw [run]
    split <;> omega
  · rw [← wants, ← enters]
    dsimp only
    split
    · rfl
    · rename_i outside
      have isOut : d.gateInCamera = false := by simpa using outside
      rw [← isOut]
      exact either stay rfl rfl

theorem gapFrame_counts (g : Gate) (eyeDraws : Nat) (now : Nat → Nat) :
    (g.gapFrame eyeDraws now).counts =
      (g.wantsPanel,
        if elapsedMs (now 13) (g.countGap now).panelStoppedMs kPanelRunOverMs then 0 else g.gatePanelRun,
        (g.countGap now).gateSincePanel, (g.countGap now).panelStoppedMs,
        if (g.countGap now).enters eyeDraws now then (g.gateCameraEnters + 1) % 2 ^ 32
        else g.gateCameraEnters) := by
  have boarded : ∀ d : Gate, d.board.counts = d.counts := fun d => either counts rfl rfl
  have idled : ∀ d : Gate, (d.idleOrAway eyeDraws now).counts = d.counts := fun d =>
    either counts (either counts rfl rfl) (either counts rfl rfl)
  have entered : ((g.countGap now).enter eyeDraws now).counts =
      (g.wantsPanel, g.gatePanelRun, (g.countGap now).gateSincePanel, (g.countGap now).panelStoppedMs,
        if (g.countGap now).enters eyeDraws now then (g.gateCameraEnters + 1) % 2 ^ 32
        else g.gateCameraEnters) := by
    unfold enter
    split
    · rfl
    · rfl
  have before := ((idled ((g.countGap now).enter eyeDraws now).board).trans (boarded _)).trans entered
  unfold gapFrame dropCredit
  generalize (((g.countGap now).enter eyeDraws now).board).idleOrAway eyeDraws now = d at before
  simp only [counts, Prod.mk.injEq] at before ⊢
  obtain ⟨wants, run, since, stopped, enters⟩ := before
  rw [← stopped, ← since, ← enters, ← run, ← wants]
  split
  · exact ⟨rfl, rfl, rfl, rfl, rfl⟩
  · exact ⟨rfl, rfl, rfl, rfl, rfl⟩

theorem gapFrame_camera (g : Gate) (eyeDraws : Nat) (now : Nat → Nat) (out : g.gateInCamera = false)
    (fails : (g.countGap now).enters eyeDraws now = false) :
    (g.gapFrame eyeDraws now).gateInCamera = false := by
  have outside : ((g.countGap now).enter eyeDraws now).gateInCamera = false := by
    unfold enter
    rw [if_neg (by simp [fails])]
    exact out
  have boarded : ((g.countGap now).enter eyeDraws now).board.gateInCamera = false :=
    either gateInCamera rfl outside
  have idled : (((g.countGap now).enter eyeDraws now).board.idleOrAway eyeDraws now).gateInCamera =
      false := either gateInCamera (either gateInCamera rfl boarded) (either gateInCamera boarded boarded)
  exact either gateInCamera idled idled

def drawn (g : Gate) (f : GateFrame) : Gate :=
  if 0 < f.panelDraws then g.panelFrame f.now
  else if g.leavesByKey then g.leaveCamera
  else g.gapFrame f.eyeDraws f.now

theorem frame_eq (wants : g.wantsPanel = true) (f : GateFrame) : ∃ settled : Bool,
    g.headOffsetGateFrame f =
      ({ g with panelSettled := settled }.drawn f).readView.publish.expireIntent f.now := by
  refine ⟨decide (0 < f.panelDraws ∧ 30 < g.gatePanelRun), ?_⟩
  exact if_neg (not_not.mpr wants)

/-- The panel is drawn, or the player leaves, or the gap goes on. -/
structure Draws (g g' : Gate) (f : GateFrame) : Prop where
  panel : 0 < f.panelDraws → ∃ run ≤ g.gatePanelRun + 1,
    g'.stay = ((g.wantsPanel, run, 0, 0, g.gateCameraEnters), false)
  left : f.panelDraws = 0 → g.leavesByKey = true → g'.stay = (g.counts, false)
  gap : f.panelDraws = 0 → g.leavesByKey = false → g'.counts =
    (g.wantsPanel,
      if elapsedMs (f.now 13) (g.countGap f.now).panelStoppedMs kPanelRunOverMs then 0 else g.gatePanelRun,
      (g.countGap f.now).gateSincePanel, (g.countGap f.now).panelStoppedMs,
      if (g.countGap f.now).enters f.eyeDraws f.now then (g.gateCameraEnters + 1) % 2 ^ 32
      else g.gateCameraEnters)
  outside : f.panelDraws = 0 → g.gateInCamera = false →
    (g.countGap f.now).enters f.eyeDraws f.now = false → g'.gateInCamera = false

theorem drawn_draws (g : Gate) (f : GateFrame) : g.Draws (g.drawn f) f := by
  unfold drawn
  refine ⟨fun panel => ?_, fun absent byKey => ?_, fun absent stays => ?_, fun absent out fails => ?_⟩
  · rw [if_pos panel]
    exact panelFrame_stay g f.now
  · rw [if_neg (by omega), if_pos byKey]
    rfl
  · rw [if_neg (by omega), if_neg (by rw [stays]; decide)]
    exact gapFrame_counts g f.eyeDraws f.now
  · rw [if_neg (by omega)]
    split
    · rfl
    · exact gapFrame_camera g f.eyeDraws f.now out fails

theorem frame_draws (wants : g.wantsPanel = true) (f : GateFrame) :
    g.Draws (g.headOffsetGateFrame f) f := by
  obtain ⟨settled, same⟩ := frame_eq wants f
  have stays := settle_stay ({ g with panelSettled := settled }.drawn f) f.now
  rw [← same] at stays
  obtain ⟨panel, left, gap, outside⟩ := drawn_draws { g with panelSettled := settled } f
  refine ⟨fun isPanel => ?_, fun absent byKey => stays.trans (left absent byKey), fun absent byKey => ?_,
    fun absent out fails => (congrArg Prod.snd stays).trans (outside absent out fails)⟩
  · obtain ⟨run, le, isStay⟩ := panel isPanel
    exact ⟨run, le, stays.trans isStay⟩
  · exact (congrArg Prod.fst stays).trans (gap absent byKey)

end Gate

theorem split_snoc {calls first rest : List GateCall} {call : GateCall}
    (split : calls ++ [call] = first ++ rest) :
    (rest = [] ∧ first = calls ++ [call]) ∨ ∃ shorter, rest = shorter ++ [call] ∧ calls = first ++ shorter := by
  rcases List.eq_nil_or_concat rest with rfl | ⟨shorter, last, rfl⟩
  · exact .inl ⟨rfl, by simpa using split.symm⟩
  · rw [List.concat_eq_append, ← List.append_assoc] at split
    obtain ⟨same, isLast⟩ := List.append_inj' split rfl
    cases isLast
    exact .inr ⟨shorter, List.concat_eq_append, same⟩

structure Counted (cfg : GateConfig) (before : List GateCall) : Prop where
  wants : (gateAfter cfg before).wantsPanel = true
  credit : ∀ first rest, before = first ++ rest → (gateAfter cfg first).gatePanelRun = 0 →
    (gateAfter cfg before).gatePanelRun ≤ panelFrames rest
  fresh : gapOf before = [] →
    (gateAfter cfg before).gateSincePanel = 0 ∧ (gateAfter cfg before).gateInCamera = false
  since : (gateAfter cfg before).gateSincePanel ≤ (gapOf before).length
  stopped : ∀ first ∈ (gapOf before).head?, 1 ≤ (gateAfter cfg before).gateSincePanel ∧
    (gateAfter cfg before).panelStoppedMs = stampMs (first.now 5)
  expired : (gateAfter cfg before).gatePanelRun ≠ 0 → ∀ first e rest, before = first ++ GateCall.frame e :: rest →
    e.panelDraws = 0 → panelFrames rest = 0 → Late first e → (gateAfter cfg first).leavesByKey = true

section

variable {cfg : GateConfig} {before : List GateCall} {call : GateCall} {f : GateFrame}

theorem stay_eq {g g' : Gate} (same : g'.stay = g.stay) :
    g'.wantsPanel = g.wantsPanel ∧ g'.gatePanelRun = g.gatePanelRun ∧ g'.gateSincePanel = g.gateSincePanel ∧
    g'.panelStoppedMs = g.panelStoppedMs ∧ g'.gateInCamera = g.gateInCamera := by
  simp only [Gate.stay, Gate.counts, Prod.mk.injEq] at same
  obtain ⟨⟨wants, run, since, stopped, _⟩, camera⟩ := same
  exact ⟨wants, run, since, stopped, camera⟩

theorem Counted.credit_snoc (h : Counted cfg before)
    (grows : (gateAfter cfg (before ++ [call])).gatePanelRun ≤
      (gateAfter cfg before).gatePanelRun + panelFrames [call]) :
    ∀ first rest, before ++ [call] = first ++ rest → (gateAfter cfg first).gatePanelRun = 0 →
      (gateAfter cfg (before ++ [call])).gatePanelRun ≤ panelFrames rest := by
  intro first rest split none
  rcases split_snoc split with ⟨rfl, rfl⟩ | ⟨shorter, rfl, rfl⟩
  · rw [none]
    exact Nat.zero_le _
  · have old := h.credit first shorter rfl none
    rw [panelFrames_append]
    omega

theorem Counted.expired_snoc (h : Counted cfg before)
    (kept : (gateAfter cfg (before ++ [call])).gatePanelRun ≠ 0 → panelFrames [call] = 0 →
      (gateAfter cfg before).gatePanelRun ≠ 0)
    (last : (gateAfter cfg (before ++ [call])).gatePanelRun ≠ 0 → ∀ e, call = .frame e → e.panelDraws = 0 →
      Late before e → (gateAfter cfg before).leavesByKey = true) :
    (gateAfter cfg (before ++ [call])).gatePanelRun ≠ 0 → ∀ first e rest,
      before ++ [call] = first ++ GateCall.frame e :: rest → e.panelDraws = 0 → panelFrames rest = 0 →
      Late first e → (gateAfter cfg first).leavesByKey = true := by
  intro credit first e rest split absent none late
  rcases split_snoc split with ⟨impossible, _⟩ | ⟨shorter, isRest, isBefore⟩
  · cases impossible
  · cases shorter with
    | nil =>
      cases isRest
      rw [List.append_nil] at isBefore
      subst isBefore
      exact last credit e rfl absent late
    | cons head shorter =>
      obtain ⟨rfl, rfl⟩ := List.cons.inj isRest
      have sum := panelFrames_append shorter [call]
      have none : panelFrames (shorter ++ [call]) = 0 := none
      exact h.expired (kept credit (by omega)) first e shorter isBefore absent (by omega) late

theorem Counted.other (h : Counted cfg before) (isOther : call.frame? = none) :
    Counted cfg (before ++ [call]) := by
  have isAfter := gateAfter_snoc cfg before call
  obtain ⟨wants, run, since, stopped, camera⟩ := stay_eq (Gate.step_other isOther (gateAfter cfg before))
  rw [← isAfter] at wants run since stopped camera
  have gap : gapOf (before ++ [call]) = gapOf before := gapOf_other isOther
  refine ⟨wants.trans h.wants, h.credit_snoc (by omega), ?_, ?_, ?_, h.expired_snoc ?_ ?_⟩
  · rw [gap, since, camera]
    exact h.fresh
  · rw [gap, since]
    exact h.since
  · rw [gap, since, stopped]
    exact h.stopped
  · rw [run]
    exact fun credit _ => credit
  · rintro _ e rfl
    cases isOther

theorem Counted.stopped_snoc (h : Counted cfg before) (short : (gapOf before).length + 1 < 2 ^ 32) :
    ∀ first ∈ (gapOf before ++ [f]).head?,
      ((gateAfter cfg before).countGap f.now).panelStoppedMs = stampMs (first.now 5) := by
  intro first isFirst
  show (if ((gateAfter cfg before).gateSincePanel + 1) % 2 ^ 32 = 1 then stampMs (f.now 5)
    else (gateAfter cfg before).panelStoppedMs) = _
  have bound := h.since
  rw [Nat.mod_eq_of_lt (by omega)]
  cases isGap : gapOf before with
  | nil =>
    rw [isGap] at isFirst
    cases isFirst
    rw [if_pos (by rw [(h.fresh isGap).1])]
  | cons head gap =>
    rw [isGap] at isFirst
    cases isFirst
    obtain ⟨positive, stopped⟩ := h.stopped first (by rw [isGap]; rfl)
    rw [if_neg (by omega), stopped]

theorem Counted.late_elapsed (h : Counted cfg before) (short : (gapOf before).length + 1 < 2 ^ 32)
    (clocked : Clocked f) (late : Late before f) :
    elapsedMs (f.now 13) ((gateAfter cfg before).countGap f.now).panelStoppedMs kPanelRunOverMs = true := by
  obtain ⟨first, isFirst, later⟩ := late
  rw [h.stopped_snoc short first (by rw [List.head?_append, Option.mem_def.mp isFirst]; rfl)]
  exact elapsedMs_of_lt (Nat.lt_of_lt_of_le later (clocked.forward 0 13 (by decide))) (clocked.fits 13)

theorem Counted.frame (h : Counted cfg before) (short : (gapOf before).length + 1 < 2 ^ 32)
    (clocked : Clocked f) : Counted cfg (before ++ [GateCall.frame f]) := by
  obtain ⟨panel, left, gap, -⟩ := Gate.frame_draws h.wants f
  have isAfter : (gateAfter cfg before).headOffsetGateFrame f = gateAfter cfg (before ++ [GateCall.frame f]) :=
    (gateAfter_snoc cfg before (.frame f)).symm
  have isGap := gapOf_frame before f
  have drawn := panelFrames_frame f
  rw [isAfter] at panel left gap
  by_cases shown : 0 < f.panelDraws
  · obtain ⟨run, le, stays⟩ := panel shown
    simp only [Gate.stay, Gate.counts, Prod.mk.injEq] at stays
    obtain ⟨⟨wants, isRun, since, _, _⟩, camera⟩ := stays
    rw [if_neg (by omega)] at isGap
    rw [if_pos shown] at drawn
    refine ⟨wants.trans h.wants, h.credit_snoc (by omega), fun _ => ⟨since, camera⟩, by omega, ?_,
      h.expired_snoc (fun _ none => by omega) ?_⟩
    · rw [isGap]
      nofun
    · rintro _ e same absent
      cases same
      omega
  · have absent : f.panelDraws = 0 := by omega
    rw [if_pos absent] at isGap
    have more : (gapOf (before ++ [GateCall.frame f])).length = (gapOf before).length + 1 := by simp [isGap]
    have bound := h.since
    cases byKey : (gateAfter cfg before).leavesByKey with
    | true =>
      have stays := left absent byKey
      simp only [Gate.stay, Gate.counts, Prod.mk.injEq] at stays
      obtain ⟨⟨wants, isRun, since, stopped, _⟩, camera⟩ := stays
      refine ⟨wants.trans h.wants, h.credit_snoc (by omega), ?_, by omega, ?_,
        h.expired_snoc (fun credit _ => by omega) fun _ e _ _ _ => byKey⟩
      · rw [isGap]
        simp
      · -- A stay is never left in the first frame of a gap.
        intro first isFirst
        rw [isGap] at isFirst
        cases gapIs : gapOf before with
        | nil =>
          have inside : (gateAfter cfg before).gateInCamera = true := by
            have all := byKey
            simp only [Gate.leavesByKey, Bool.and_eq_true] at all
            exact all.1.1
          rw [(h.fresh gapIs).2] at inside
          cases inside
        | cons head gap =>
          rw [gapIs] at isFirst
          cases isFirst
          rw [since, stopped]
          exact h.stopped first (by rw [gapIs]; rfl)
    | false =>
      have counts := gap absent byKey
      simp only [Gate.counts, Prod.mk.injEq] at counts
      obtain ⟨wants, isRun, since, stopped, _⟩ := counts
      have isSince : (gateAfter cfg (before ++ [GateCall.frame f])).gateSincePanel =
          (gateAfter cfg before).gateSincePanel + 1 := since.trans (Nat.mod_eq_of_lt (by omega))
      have le : (gateAfter cfg (before ++ [GateCall.frame f])).gatePanelRun ≤ (gateAfter cfg before).gatePanelRun := by
        rw [isRun]
        split <;> omega
      refine ⟨wants.trans h.wants, h.credit_snoc (by omega), ?_, by omega, ?_,
        h.expired_snoc (fun credit _ => by omega) ?_⟩
      · rw [isGap]
        simp
      · rw [isGap, isSince, stopped]
        exact fun first isFirst => ⟨by omega, h.stopped_snoc short first isFirst⟩
      · rintro credit e same _ late
        cases same
        rw [isRun, if_pos (h.late_elapsed short clocked late)] at credit
        exact absurd rfl credit

theorem Gate.countGap_later {g : Gate} {now : Nat → Nat} (later : (g.gateSincePanel + 1) % 2 ^ 32 ≠ 1) :
    g.countGap now = { g with gateSincePanel := (g.gateSincePanel + 1) % 2 ^ 32 } := by
  unfold Gate.countGap
  dsimp only
  rw [if_neg later, if_neg later]

theorem Gate.Begins.enters {g : Gate} (begins : g.Begins f) (wants : g.wantsPanel = true) :
    f.panelDraws = 0 ∧ (g.countGap f.now).enters f.eyeDraws f.now = true := by
  obtain ⟨panel, left, gap, outside⟩ := Gate.frame_draws wants f
  by_cases shown : 0 < f.panelDraws
  · obtain ⟨run, _, stays⟩ := panel shown
    have camera : (g.headOffsetGateFrame f).gateInCamera = false := congrArg Prod.snd stays
    rcases begins with counted | ⟨_, inside⟩
    · exact absurd (congrArg (fun stay => stay.1.2.2.2.2) stays) counted
    · rw [camera] at inside
      cases inside
  have absent : f.panelDraws = 0 := by omega
  refine ⟨absent, ?_⟩
  by_contra fails
  rcases begins with counted | ⟨out, inside⟩
  · cases byKey : g.leavesByKey with
    | true => exact counted (congrArg (fun stay => stay.1.2.2.2.2) (left absent byKey))
    | false =>
      have same := congrArg (fun counts => counts.2.2.2.2) (gap absent byKey)
      exact counted (same.trans (if_neg fails))
  · rw [outside absent out (by simpa using fails)] at inside
    cases inside

theorem Gate.begins_of_enters {g : Gate} (wants : g.wantsPanel = true) (absent : f.panelDraws = 0)
    (enters : (g.countGap f.now).enters f.eyeDraws f.now = true) : g.Begins f := by
  have out : g.gateInCamera = false := by
    simp only [Gate.enters, Bool.and_eq_true, Bool.not_eq_true'] at enters
    exact enters.1.1.1.1
  have counts := (Gate.frame_draws wants f).gap absent (by simp [Gate.leavesByKey, out])
  have same := congrArg (fun counts => counts.2.2.2.2) counts
  refine .inl ((same.trans (if_pos enters)).trans_ne ?_)
  omega

theorem Gate.enters_iff {g : Gate} {eyeDraws : Nat} {now : Nat → Nat} : g.enters eyeDraws now = true ↔
    (((g.gateInCamera = false ∧ g.entryAsked now = true) ∧ 8 ≤ g.gateSincePanel) ∧
      kSceneDraws < eyeDraws) ∧ 30 < g.gatePanelRun := by
  simp only [Gate.enters, Bool.and_eq_true, decide_eq_true_eq, Bool.not_eq_true']

theorem Counted.prompt_iff (h : Counted cfg before) : Prompt cfg before f ↔ OnTime cfg before f := by
  constructor
  · rintro prompt ⟨absent, late, _⟩
    by_contra passes
    exact prompt (Gate.begins_of_enters h.wants absent (by simpa using passes)) late
  · intro onTime begins late
    obtain ⟨absent, enters⟩ := begins.enters h.wants
    have credit : 30 < (gateAfter cfg before).gatePanelRun := (Gate.enters_iff.mp enters).2
    rw [onTime ⟨absent, late, h.expired (by omega)⟩] at enters
    cases enters

theorem Counted.proper (h : Counted cfg before) : ProperFrame cfg before f := by
  obtain ⟨settled, same⟩ := Gate.frame_eq h.wants f
  obtain ⟨panel, _, _, _⟩ := Gate.frame_draws h.wants f
  have flag := Gate.settle_published ({ gateAfter cfg before with panelSettled := settled }.drawn f) f.now
  have stays := Gate.settle_stay ({ gateAfter cfg before with panelSettled := settled }.drawn f) f.now
  rw [← same] at flag stays
  obtain ⟨published, inside⟩ := flag
  have camera := congrArg Prod.snd stays
  have test : (gateAfter cfg before).Begins f → f.panelDraws = 0 ∧
      ((gateAfter cfg before).countGap f.now).entryAsked f.now = true ∧
      8 ≤ ((gateAfter cfg before).gateSincePanel + 1) % 2 ^ 32 ∧ kSceneDraws < f.eyeDraws ∧
      30 < (gateAfter cfg before).gatePanelRun := by
    intro begins
    obtain ⟨absent, enters⟩ := begins.enters h.wants
    obtain ⟨⟨⟨⟨_, asked⟩, gone⟩, scene⟩, credit⟩ := Gate.enters_iff.mp enters
    exact ⟨absent, asked, gone, scene, credit⟩
  refine ⟨published, fun on => camera.trans (inside on), fun shown => ?_, fun begins => (test begins).2.2.2.1,
    fun begins => ?_, fun begins first rest split none => ?_, fun begins => ?_⟩
  · obtain ⟨run, _, isStay⟩ := panel shown
    have outside : ((gateAfter cfg before).headOffsetGateFrame f).gateInCamera = false :=
      congrArg Prod.snd isStay
    rw [published]
    by_contra on
    have isIn := camera.trans (inside (by simpa using on))
    rw [show ((gateAfter cfg before).headOffsetGateFrame f).stay.2 = false from outside] at isIn
    cases isIn
  · obtain ⟨absent, _, gone, _, _⟩ := test begins
    have bound := h.since
    exact ⟨absent, by omega⟩
  · obtain ⟨_, _, _, _, credit⟩ := test begins
    exact Nat.lt_of_lt_of_le credit (h.credit first rest split none)
  · obtain ⟨_, asked, gone, _, _⟩ := test begins
    rw [Gate.countGap_later (by omega)] at asked
    simp only [Gate.entryAsked, Gate.intentOk, Bool.or_eq_true, Bool.and_eq_true, Bool.not_eq_true'] at asked
    rcases asked with ⟨keyed, _⟩ | keyless
    · exact .inl keyed
    · exact .inr keyless

end

/-- In every run of the gate whose gaps are counted without a wrap the offset is on in the
camera only, and a stay there is properly entered. No stay begins too late exactly where
the first late frame of no gap passes the test for one. -/
theorem stays_properly_entered (cfg : GateConfig) (enabled : cfg.wantsPanel = true) (calls : List GateCall)
    (clocked : ∀ f ∈ framesOf calls, Clocked f)
    (unwrapped : ∀ before f after, calls = before ++ GateCall.frame f :: after → (gapOf before).length + 1 < 2 ^ 32) :
    (∀ before f after, calls = before ++ GateCall.frame f :: after → ProperFrame cfg before f) ∧
    ((∀ before f after, calls = before ++ GateCall.frame f :: after → Prompt cfg before f) ↔
      ∀ before f after, calls = before ++ GateCall.frame f :: after → OnTime cfg before f) := by
  have counted : ∀ before after, calls = before ++ after → Counted cfg before := by
    intro before
    induction before using List.reverseRecOn with
    | nil =>
      intro _ _
      refine ⟨enabled, ?_, fun _ => ⟨rfl, rfl⟩, Nat.le_refl _, nofun, fun credit => absurd rfl credit⟩
      exact fun _ _ _ _ => Nat.zero_le _
    | append_singleton before call ih =>
      intro after split
      have isSplit : calls = before ++ call :: after := by rw [split, List.append_assoc]; rfl
      have h := ih (call :: after) isSplit
      cases isCall : call.frame? with
      | none => exact h.other isCall
      | some f =>
        obtain rfl : call = .frame f := by
          cases call <;> simp_all [GateCall.frame?]
        refine h.frame (unwrapped before f after isSplit) (clocked f ?_)
        rw [isSplit]
        simp [framesOf, GateCall.frame?]
  refine ⟨fun before f after split => (counted before (.frame f :: after) split).proper, ?_⟩
  exact forall_congr' fun before => forall_congr' fun f => forall_congr' fun after =>
    forall_congr' fun split => (counted before (.frame f :: after) split).prompt_iff

theorem gapOf_length_le (calls : List GateCall) : (gapOf calls).length ≤ calls.length := by
  induction calls using List.reverseRecOn with
  | nil => exact Nat.le_refl _
  | append_singleton calls call ih =>
    cases call with
    | frame f =>
      rw [gapOf_frame, List.length_append]
      split
      · rw [List.length_append]
        exact Nat.add_le_add_right ih 1
      · exact Nat.zero_le _
    | _ =>
      rw [gapOf_other rfl, List.length_append]
      exact Nat.le_add_right_of_le ih

/-- On foot for a while, then the camera key, and seven frames without the panel. -/
def keyed : List GateCall :=
  [GateCall.setKeyBound true] ++ List.replicate 31 (GateCall.frame ⟨4, 120, fun _ => 1000⟩) ++
    [GateCall.keyPressed 1000] ++ List.replicate 7 (GateCall.frame ⟨0, 2500, fun _ => 1000⟩)

def sceneAt (ms : Nat) : GateFrame := ⟨0, 2500, fun _ => ms⟩

theorem clocked_of_const {draws eyes ms : Nat} (fits : ms < 2 ^ 64) : Clocked ⟨draws, eyes, fun _ => ms⟩ :=
  ⟨fun _ _ _ => Nat.le_refl _, fun _ => fits⟩

theorem keyed_early {f : GateFrame} (mem : .frame f ∈ keyed ++ [GateCall.frame (sceneAt 1100)]) :
    Clocked f ∧ f.now 0 ≤ 1100 := by
  simp only [keyed, sceneAt, List.mem_append, List.mem_replicate, List.mem_singleton] at mem
  rcases mem with ((((same | ⟨_, same⟩) | same) | ⟨_, same⟩) | same)
  all_goals
    cases same
    try exact ⟨clocked_of_const (by decide), by decide⟩

/-- A stay begins in time and goes on long after the panel has stopped. -/
theorem stays_properly_entered_keyed :
    (∀ before f after, keyed ++ [GateCall.frame (sceneAt 1100)] ++ [GateCall.frame (sceneAt 2500)] =
      before ++ GateCall.frame f :: after → ProperFrame {} before f ∧ Prompt {} before f) ∧
    (gateAfter {} keyed).Begins (sceneAt 1100) ∧
    Late (keyed ++ [GateCall.frame (sceneAt 1100)]) (sceneAt 2500) := by
  have runs := stays_properly_entered {} rfl
    (keyed ++ [GateCall.frame (sceneAt 1100)] ++ [GateCall.frame (sceneAt 2500)]) ?_ ?_
  · refine ⟨fun before f after split => ⟨runs.1 before f after split, runs.2.mpr ?_ before f after split⟩,
      by unfold Gate.Begins; decide +kernel, sceneAt 1000, rfl, by decide⟩
    rintro before f after split ⟨_, ⟨first, _, late⟩, _⟩
    rcases split_snoc split with ⟨impossible, _⟩ | ⟨shorter, isRest, isKeyed⟩
    · cases impossible
    · cases shorter with
      | nil =>
        cases isRest
        rw [List.append_nil] at isKeyed
        subst isKeyed
        decide +kernel
      | cons head shorter =>
        obtain ⟨rfl, rfl⟩ := List.cons.inj isRest
        have bound := (keyed_early (f := f) (by rw [isKeyed]; simp)).2
        have past : kPanelRunOverMs = 1150 := rfl
        omega
  · intro f mem
    obtain ⟨call, isCall, isFrame⟩ := List.mem_filterMap.mp mem
    cases call <;> cases isFrame
    rcases List.mem_append.mp isCall with early | last
    · exact (keyed_early early).1
    · cases List.mem_singleton.mp last
      exact clocked_of_const (by decide)
  · intro before f after split
    have length : 42 = (before ++ GateCall.frame f :: after).length := congrArg List.length split
    rw [List.length_append] at length
    have le := gapOf_length_le before
    omega

/-- The eighth frame comes long after the panel stopped, and finds the credit there. -/
theorem late_stay_begins : (∀ f ∈ framesOf keyed ++ [sceneAt 2500], Clocked f) ∧
    ¬Prompt {} keyed (sceneAt 2500) := by
  constructor
  · intro f mem
    rcases List.mem_append.mp mem with isKeyed | same
    · obtain ⟨call, isCall, isFrame⟩ := List.mem_filterMap.mp isKeyed
      simp only [keyed, List.mem_append, List.mem_replicate, List.mem_singleton] at isCall
      rcases isCall with (((rfl | ⟨_, rfl⟩) | rfl) | ⟨_, rfl⟩) <;> cases isFrame
      · exact clocked_of_const (by decide)
      · exact clocked_of_const (by decide)
    · rw [List.mem_singleton.mp same]
      exact clocked_of_const (by decide)
  · intro prompt
    refine prompt (by unfold Gate.Begins; decide +kernel) ⟨sceneAt 1000, ?_, by decide⟩
    rfl

end EdvrPatch.HeadOffset
