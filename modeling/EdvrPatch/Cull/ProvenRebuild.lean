import EdvrPatch.Cull.Guard

/-! The guard tells the game a frustum of its own only after a proven rebuild.
What was proven is read off the calls alone: the last frame begun, the sizes noted
since, and the sizes noted in each frame before it. -/
namespace EdvrPatch.Cull

open Lib

/-- The calls as frames: the last one begun, the calls since, and the calls of
each finished frame. -/
structure Frames where
  last : Option FrameInput := none
  notes : List CullCall := []
  earlier : List (List CullCall) := []

def Frames.advance (frames : Frames) : CullCall → Frames
  | .beginFrame f =>
    { last := some f
      earlier := if frames.last.isSome then frames.earlier ++ [frames.notes] else frames.earlier }
  | call => { frames with notes := frames.notes ++ [call] }

def framesOf (calls : List CullCall) : Frames := calls.foldl Frames.advance {}

def PairNoted (notes : List CullCall) (pair : Eyes NativeCullDimensions) : Prop :=
  ∀ eye size, pair.get? eye = some size →
    .noteSubmittedSize eye size.width size.height ∈ notes ∧
      NativeCullGuard.plausibleSize size.width size.height

/-- The settings and the geometry of one frame against the frame before it, as the
guard compares them. -/
def Unchanged (last f : FrameInput) : Prop :=
  f.settings.sameSettings last.settings ∧ f.trueFrusta = last.trueFrusta ∧
    f.runtimeDims = last.runtimeDims

/-- Every frame begun in `calls` is unchanged from the one before it. -/
def UnchangedThrough (last : FrameInput) : List CullCall → Prop
  | [] => True
  | .beginFrame f :: rest => Unchanged last f ∧ UnchangedThrough f rest
  | _ :: rest => UnchangedThrough last rest

def reportedFrusta (calls : List CullCall) : Eyes NativeCullFrustum :=
  calls.foldl (fun frusta call => match call with
    | .beginFrame f => if f.validInputs then f.trueFrusta else frusta
    | _ => frusta) ⟨{}, {}⟩

/-- What a frame needs to go live: nothing changed since the last one, a pair noted
in it and, but for a first ask, a baseline noted in a frame before. -/
structure ProvenRebuild (calls : List CullCall) (g : NativeCullGuard) (f : FrameInput) : Prop where
  adopting : g.stage = .adopting
  unchanged : ∃ last, (framesOf calls).last = some last ∧ Unchanged last f
  pair : PairNoted (framesOf calls).notes g.submitted
  baseline : g.route = .firstAsk ∨ ∃ notes ∈ (framesOf calls).earlier, PairNoted notes g.baseline

/-- The game is told the given frusta, the whole of each image. -/
structure ToldTruth (math : CullMath) (g : NativeCullGuard) (frusta : Eyes NativeCullFrustum) :
    Prop where
  raw : g.gameFrustumRaw = frusta
  matrix : g.gameFrustumMatrix = frusta
  crop : g.cropBounds math = ⟨{}, {}⟩
  placement : g.placementBounds math = ⟨{}, {}⟩

theorem guardAfter_concat (math : CullMath) (calls : List CullCall) (call : CullCall) :
    guardAfter math (calls ++ [call]) = (guardAfter math calls).step math call := by
  simp [guardAfter]

theorem framesOf_concat (calls : List CullCall) (call : CullCall) :
    framesOf (calls ++ [call]) = (framesOf calls).advance call := by
  simp [framesOf]

namespace NativeCullGuard

variable (math : CullMath) {g : NativeCullGuard} {f : FrameInput}

theorem startNudge_eq (g : NativeCullGuard) :
    ∃ height floor nudge, g.startNudge math =
      { g with nudgeHeight := height, nudgeFloor := floor, nudge := nudge } := by
  unfold startNudge
  dsimp only
  repeat' split
  all_goals exact ⟨_, _, _, rfl⟩

theorem startAdopting_eq (g : NativeCullGuard) (w : Widened) (sizeAsked : Bool) :
    ∃ route ask floor height nudgeFloor nudge, g.startAdopting math w sizeAsked =
      { g with
        target := w.target, lied := w.lied, factorW := w.factorW, factorH := w.factorH
        maxFactorW := w.maxFactorW, maxFactorH := w.maxFactorH
        stage := .adopting, changed := true, submittedReady := false
        submittedMask := ⟨false, false⟩, adoptingFrames := 0, route := route
        pendingAsk := ask, floor := floor, nudgeHeight := height, nudgeFloor := nudgeFloor
        nudge := nudge } := by
  unfold startAdopting
  extract_lets started fresh based nudged
  obtain ⟨height, floor, nudge, isNudged⟩ := startNudge_eq math based
  have isBased : ∃ floor ask, based = { started with floor := floor, pendingAsk := ask } := by
    unfold based
    split
    · exact ⟨_, _, rfl⟩
    split
    · exact ⟨_, _, rfl⟩
    · exact ⟨_, _, rfl⟩
  obtain ⟨low, ask, isBased⟩ := isBased
  change nudged = _ at isNudged
  rw [isBased] at isNudged
  split
  · rw [isNudged]
    exact ⟨_, _, _, _, _, _, rfl⟩
  · rw [isNudged]
    exact ⟨_, _, _, _, _, _, rfl⟩

theorem adopt_spec (g : NativeCullGuard) (f : FrameInput) :
    (g.adopt math f).stage ≠ .live ∧ (g.adopt math f).settings = g.settings ∧
      (g.adopt math f).trueFrusta = g.trueFrusta ∧ (g.adopt math f).runtime = g.runtime ∧
      (g.adopt math f).baseline = g.baseline ∧
      (g.adopt math f).baselineReady = g.baselineReady ∧
      (g.adopt math f).pendingStandDown = g.pendingStandDown ∧
      (g.submittedMask = ⟨false, false⟩ → (g.adopt math f).submittedMask = ⟨false, false⟩) ∧
      (g.submittedReady = false → (g.adopt math f).submittedReady = false) := by
  unfold adopt
  split
  · exact ⟨nofun, rfl, rfl, rfl, rfl, rfl, rfl, id, id⟩
  split
  · exact ⟨nofun, rfl, rfl, rfl, rfl, rfl, rfl, id, id⟩
  · rename_i w _
    obtain ⟨route, ask, floor, height, nudgeFloor, nudge, isStarted⟩ :=
      startAdopting_eq math g w f.sizeAsked
    rw [isStarted]
    exact ⟨nofun, rfl, rfl, rfl, rfl, rfl, rfl, fun _ => rfl, fun _ => rfl⟩

/-- All that `judge` can do: clear the notes of an adoption or a live stretch, and
go live on a complete pair that is a first ask's or has a baseline. -/
structure Judged (g judged : NativeCullGuard) : Prop where
  stage : judged.stage = g.stage ∨ g.stage = .adopting ∧ judged.stage = .live ∧
    g.submittedReady = true ∧ (g.route = .firstAsk ∨ g.baselineReady = true)
  settings : judged.settings = g.settings
  trueFrusta : judged.trueFrusta = g.trueFrusta
  runtime : judged.runtime = g.runtime
  baseline : judged.baseline = g.baseline
  baselineReady : judged.baselineReady = g.baselineReady
  pendingStandDown : judged.pendingStandDown = g.pendingStandDown
  asked : g.asking = true → judged.submittedMask = ⟨false, false⟩ ∧ judged.submittedReady = false
  idle : g.asking = false → judged = g

theorem judge_spec (g : NativeCullGuard) : Judged g (g.judge math) := by
  unfold judge
  split
  · rename_i asking
    extract_lets counted asked promoted
    have isCounted : ∃ frames, counted = { g with adoptingFrames := frames } := by
      unfold counted
      split
      · exact ⟨_, rfl⟩
      · exact ⟨_, rfl⟩
    obtain ⟨frames, isCounted⟩ := isCounted
    have isAsked : asked = counted ∨ asked = counted.goLive ∧ g.stage = .adopting ∧
        g.submittedReady = true ∧ g.route = .firstAsk := by
      unfold asked
      split
      · rename_i first
        rw [isCounted] at first ⊢
        exact .inr ⟨rfl, first.1, first.2.2, first.2.1⟩
      · exact .inl rfl
    have isPromoted : promoted = asked ∨ promoted = asked.goLive ∧ asked.stage = .adopting ∧
        asked.submittedReady = true ∧ asked.baselineReady = true := by
      unfold promoted
      split
      · rename_i met
        exact .inr ⟨rfl, met.1, met.2.2.1, met.2.1⟩
      · exact .inl rfl
    have busy : ¬g.asking = false := by simp [asking]
    rcases isAsked with isAsked | ⟨isAsked, adopting, ready, first⟩
    · rcases isPromoted with isPromoted | ⟨isPromoted, adopting, ready, based⟩
      · rw [isPromoted, isAsked, isCounted]
        exact ⟨.inl rfl, rfl, rfl, rfl, rfl, rfl, rfl, fun _ => ⟨rfl, rfl⟩, fun idle => absurd idle busy⟩
      · rw [isAsked, isCounted] at adopting ready based
        rw [isPromoted, isAsked, isCounted]
        exact ⟨.inr ⟨adopting, rfl, ready, .inr based⟩, rfl, rfl, rfl, rfl, rfl, rfl,
          fun _ => ⟨rfl, rfl⟩, fun idle => absurd idle busy⟩
    · rcases isPromoted with isPromoted | ⟨_, stillAdopting, _, _⟩
      · rw [isPromoted, isAsked, isCounted]
        exact ⟨.inr ⟨adopting, rfl, ready, .inl first⟩, rfl, rfl, rfl, rfl, rfl, rfl,
          fun _ => ⟨rfl, rfl⟩, fun idle => absurd idle busy⟩
      · rw [isAsked] at stillAdopting
        cases stillAdopting
  · rename_i idle
    have idle : g.asking = false := by simpa using idle
    refine ⟨.inl rfl, rfl, rfl, rfl, rfl, rfl, rfl, ?_, fun _ => rfl⟩
    intro asking
    rw [idle] at asking
    cases asking

/-- A frame with changed settings or geometry starts over; any other keeps the
stage, the notes and the baseline. -/
structure Taken (g : NativeCullGuard) (f : FrameInput) (taken : NativeCullGuard) : Prop where
  settings : taken.settings = f.settings
  trueFrusta : taken.trueFrusta = f.trueFrusta
  runtime : taken.runtime = f.runtimeDims
  baseline : taken.baseline = g.baseline
  pendingStandDown : taken.pendingStandDown = g.pendingStandDown
  baselineReady : taken.baselineReady = true → g.baselineReady = true
  changed : taken.stage = .off ∧ taken.submittedMask = ⟨false, false⟩ ∧
      taken.submittedReady = false ∨
    (f.settings.sameSettings g.settings ∧ f.trueFrusta = g.trueFrusta ∧
      f.runtimeDims = g.runtime) ∧
      taken = { g with settings := f.settings, referenceGeneration := f.referenceGeneration }

theorem takeSettings_spec (g : NativeCullGuard) (f : FrameInput) :
    Taken g f (g.takeSettings f) := by
  unfold takeSettings
  split
  · refine ⟨rfl, rfl, rfl, rfl, rfl, ?_, .inl ⟨rfl, rfl, rfl⟩⟩
    intro kept
    have kept : (g.stage == .adopting && g.baselineReady && g.baselineReady) = true := kept
    simp only [Bool.and_eq_true] at kept
    exact kept.2
  · rename_i same
    simp only [sameGeometry, Bool.or_eq_true, Bool.not_eq_true', Bool.and_eq_false_iff, not_or,
      Bool.not_eq_false, beq_eq_false_iff_ne, ne_eq, not_not] at same
    obtain ⟨settings, frusta, dims⟩ := same
    exact ⟨rfl, frusta.symm, dims.symm, rfl, rfl, id, .inr ⟨⟨settings, frusta, dims⟩, rfl⟩⟩

theorem beginFrame_cases (g : NativeCullGuard) (f : FrameInput) :
    f.usable = false ∧ g.beginFrame math f = (g.forget.turnOff f).finish math ∨
      f.usable = true ∧ ∃ taken, Taken g.forget f taken ∧
        (g.pendingStandDown = true ∧ g.beginFrame math f = taken.takeStandDown.finish math ∨
          g.pendingStandDown = false ∧ ∃ judged, Judged taken judged ∧
            (g.beginFrame math f = judged.finish math ∨
              ¬(judged.stage = .inert ∧ judged.forcedInert = true) ∧
                g.beginFrame math f = (judged.adopt math f).finish math)) := by
  cases usable : f.usable with
  | false =>
    refine .inl ⟨rfl, ?_⟩
    unfold beginFrame
    rw [usable]
    rfl
  | true =>
    refine .inr ⟨rfl, _, takeSettings_spec g.forget f, ?_⟩
    unfold beginFrame
    rw [usable]
    cases pending : g.pendingStandDown with
    | true => exact .inl ⟨rfl, rfl⟩
    | false =>
      refine .inr ⟨rfl, _, judge_spec math _, ?_⟩
      rw [if_neg (by decide), if_neg (by decide)]
      dsimp only
      split
      · exact .inl rfl
      · rename_i other
        exact .inr ⟨fun inert => other (.inl inert), rfl⟩

theorem beginFrame_settings (g : NativeCullGuard) (f : FrameInput) :
    (g.beginFrame math f).settings = f.settings ∧
      (g.beginFrame math f).pendingStandDown = false ∧
      (g.beginFrame math f).baseline = g.baseline ∧
      ((g.beginFrame math f).baselineReady = true → g.baselineReady = true) := by
  rcases beginFrame_cases math g f with ⟨_, begun⟩ | ⟨_, taken, took, ⟨_, begun⟩ |
    ⟨_, judged, judging, begun | ⟨_, begun⟩⟩⟩
  · rw [begun]
    exact ⟨rfl, rfl, rfl, nofun⟩
  · rw [begun]
    exact ⟨took.settings, took.pendingStandDown, took.baseline, nofun⟩
  · rw [begun]
    refine ⟨judging.settings.trans took.settings,
      judging.pendingStandDown.trans took.pendingStandDown,
      judging.baseline.trans took.baseline, fun ready => took.baselineReady ?_⟩
    exact judging.baselineReady.symm.trans ready
  · rw [begun]
    obtain ⟨_, settings, _, _, baseline, kept, pending, _⟩ := adopt_spec math judged f
    refine ⟨settings.trans (judging.settings.trans took.settings),
      pending.trans (judging.pendingStandDown.trans took.pendingStandDown),
      baseline.trans (judging.baseline.trans took.baseline), fun ready => took.baselineReady ?_⟩
    exact judging.baselineReady.symm.trans (kept.symm.trans ready)

theorem validInputs_of_usable (usable : f.usable = true) : f.validInputs = true := by
  unfold FrameInput.usable at usable
  simp only [Bool.and_eq_true] at usable
  exact usable.1.2

theorem beginFrame_geometry (g : NativeCullGuard) (f : FrameInput) :
    (g.beginFrame math f).trueFrusta = (if f.validInputs then f.trueFrusta else g.trueFrusta) ∧
      (g.beginFrame math f).runtime = (if f.validInputs then f.runtimeDims else g.runtime) := by
  rcases beginFrame_cases math g f with ⟨_, begun⟩ | ⟨usable, taken, took, ways⟩
  · rw [begun]
    exact ⟨rfl, rfl⟩
  rw [validInputs_of_usable usable, if_pos rfl, if_pos rfl]
  rcases ways with ⟨_, begun⟩ | ⟨_, judged, judging, begun | ⟨_, begun⟩⟩
  · rw [begun]
    exact ⟨took.trueFrusta, took.runtime⟩
  · rw [begun]
    exact ⟨judging.trueFrusta.trans took.trueFrusta, judging.runtime.trans took.runtime⟩
  · rw [begun]
    obtain ⟨_, _, frusta, dims, _⟩ := adopt_spec math judged f
    exact ⟨frusta.trans (judging.trueFrusta.trans took.trueFrusta),
      dims.trans (judging.runtime.trans took.runtime)⟩

theorem asking_of_adopting (adopting : g.stage = .adopting) : g.asking = true := by
  unfold asking
  rw [adopting]
  rfl

theorem beginFrame_notes (quiet : g.stage ≠ .adopting →
      g.submittedMask = ⟨false, false⟩ ∧ g.submittedReady = false) (f : FrameInput) :
    (g.beginFrame math f).submittedMask = ⟨false, false⟩ ∧
      (g.beginFrame math f).submittedReady = false := by
  rcases beginFrame_cases math g f with ⟨_, begun⟩ | ⟨_, taken, took, ⟨_, begun⟩ |
    ⟨_, judged, judging, ways⟩⟩
  · rw [begun]
    exact ⟨rfl, rfl⟩
  · rw [begun]
    exact ⟨rfl, rfl⟩
  have silent : judged.submittedMask = ⟨false, false⟩ ∧ judged.submittedReady = false := by
    cases asking : taken.asking with
    | true => exact judging.asked asking
    | false =>
      rw [judging.idle asking]
      rcases took.changed with ⟨_, mask, ready⟩ | ⟨_, same⟩
      · exact ⟨mask, ready⟩
      · have idle : g.stage ≠ .adopting := by
          intro adopting
          have adopting : taken.stage = .adopting := by
            rw [same]
            exact adopting
          rw [asking_of_adopting adopting] at asking
          cases asking
        rw [same]
        exact quiet idle
  rcases ways with begun | ⟨_, begun⟩
  · rw [begun]
    exact silent
  · rw [begun]
    obtain ⟨_, _, _, _, _, _, _, mask, ready⟩ := adopt_spec math judged f
    exact ⟨mask silent.1, ready silent.2⟩

theorem beginFrame_live (live : (g.beginFrame math f).stage = .live) :
    (f.settings.sameSettings g.settings ∧ f.trueFrusta = g.trueFrusta ∧
        f.runtimeDims = g.runtime) ∧
      (g.stage = .live ∨ g.stage = .adopting ∧ g.submittedReady = true ∧
        (g.route = .firstAsk ∨ g.baselineReady = true)) := by
  rcases beginFrame_cases math g f with ⟨_, begun⟩ | ⟨_, taken, took, ⟨_, begun⟩ |
    ⟨_, judged, judging, begun | ⟨_, begun⟩⟩⟩
  · rw [begun] at live
    cases live
  · rw [begun] at live
    cases live
  · rw [begun] at live
    have live : judged.stage = .live := live
    have stage := judging.stage
    rw [live] at stage
    rcases took.changed with ⟨off, _⟩ | ⟨unchanged, same⟩
    · rw [off] at stage
      rcases stage with stays | ⟨adopting, _⟩
      · cases stays
      · cases adopting
    · rw [same] at stage
      rcases stage with stays | ⟨adopting, _, ready, route⟩
      · exact ⟨unchanged, .inl stays.symm⟩
      · exact ⟨unchanged, .inr ⟨adopting, ready, route⟩⟩
  · rw [begun] at live
    exact absurd live (adopt_spec math judged f).1

theorem beginFrame_stoodDown (usable : f.usable = true) (pending : g.pendingStandDown = true) :
    (g.beginFrame math f).stage = .inert ∧ (g.beginFrame math f).forcedInert = true := by
  rcases beginFrame_cases math g f with ⟨unusable, _⟩ | ⟨_, taken, _, ⟨_, begun⟩ | ⟨idle, _⟩⟩
  · rw [usable] at unusable
    cases unusable
  · rw [begun]
    exact ⟨rfl, rfl⟩
  · rw [pending] at idle
    cases idle

theorem beginFrame_forced (usable : f.usable = true) (inert : g.stage = .inert)
    (forced : g.forcedInert = true) (settings : f.settings.sameSettings g.settings)
    (frusta : f.trueFrusta = g.trueFrusta) (dims : f.runtimeDims = g.runtime) :
    (g.beginFrame math f).stage = .inert ∧ (g.beginFrame math f).forcedInert = true := by
  have kept : g.forget.takeSettings f =
      { g.forget with settings := f.settings, referenceGeneration := f.referenceGeneration } := by
    unfold takeSettings
    rw [if_neg]
    simp only [sameGeometry, Bool.or_eq_true, Bool.not_eq_true', Bool.and_eq_false_iff, not_or,
      Bool.not_eq_false, beq_eq_false_iff_ne, ne_eq, not_not]
    exact ⟨settings, frusta, dims⟩
  have idle : (g.forget.takeSettings f).asking = false := by
    rw [kept]
    change (g.stage == .adopting || g.stage == .live) = false
    rw [inert]
    rfl
  have judges : (g.forget.takeSettings f).judge math = g.forget.takeSettings f :=
    (judge_spec math _).idle idle
  unfold beginFrame
  rw [usable]
  cases pending : g.pendingStandDown with
  | true => exact ⟨rfl, rfl⟩
  | false =>
    rw [if_neg (by decide), if_neg (by decide), judges, kept, if_pos (.inl ⟨inert, forced⟩)]
    exact ⟨inert, forced⟩

theorem noteSubmittedSize_cases (g : NativeCullGuard) (eye width height : Nat) :
    g.noteSubmittedSize eye width height = g ∨
      g.stage = .adopting ∧ plausibleSize width height ∧ g.submittedMask.get? eye = some false ∧
        ∃ pair mask, pair = g.submitted.set eye ⟨width, height⟩ ∧
          mask = g.submittedMask.set eye true ∧
          (g.noteSubmittedSize eye width height =
              { g with submitted := pair, submittedMask := mask } ∧ mask ≠ ⟨true, true⟩ ∨
            mask = ⟨true, true⟩ ∧
              ((g.route = .firstAsk ∨ g.baselineReady = true) ∧
                  g.noteSubmittedSize eye width height =
                    { g with submitted := pair, submittedMask := mask, submittedReady := true } ∨
                g.noteSubmittedSize eye width height =
                  { g with
                    submitted := pair, submittedMask := mask, submittedReady := false
                    baseline := pair, baselineAsk := g.pendingAsk, baselineReady := true })) := by
  unfold noteSubmittedSize
  split
  · exact .inl rfl
  rename_i noted isNoted
  split
  · exact .inl rfl
  rename_i taken
  simp only [not_or, not_not, ne_eq, Bool.not_eq_true, Bool.not_eq_false] at taken
  obtain ⟨adopting, fits, fresh⟩ := taken
  rw [fresh] at isNoted
  refine .inr ⟨adopting, fits, isNoted, _, _, rfl, rfl, ?_⟩
  dsimp only
  split
  · rename_i partly
    refine .inl ⟨rfl, fun both => partly ?_⟩
    rw [both]
    exact ⟨rfl, rfl⟩
  rename_i both
  rw [not_not] at both
  refine .inr ⟨Eyes.ext both.1 both.2, ?_⟩
  split
  · rename_i first
    exact .inl ⟨.inl first, rfl⟩
  split
  · exact .inr rfl
  · rename_i based
    rw [not_not] at based
    exact .inl ⟨.inr based, rfl⟩

end NativeCullGuard

theorem validSettings_of_same {a b : NativeCullSettings} (same : a.sameSettings b) :
    a.validSettings = b.validSettings ∧ a.anyTrim = b.anyTrim ∧ a.mode = b.mode := by
  unfold NativeCullSettings.sameSettings at same
  simp only [Bool.and_eq_true, beq_iff_eq, decide_eq_true_eq] at same
  obtain ⟨⟨⟨⟨⟨⟨⟨⟨⟨outer, nasal⟩, vertical⟩, channel⟩, mode⟩, percent⟩, horizontal⟩, fraction⟩,
    count⟩, signatures⟩ := same
  have within {x y : Binary32} (eq : Binary32.equal x y) (limit : Binary32) :
      NativeCullSettings.within limit x = NativeCullSettings.within limit y := by
    unfold NativeCullSettings.within
    rw [Binary32.isfinite_of_equal eq, Binary32.less_of_equal_left eq,
      Binary32.less_of_equal_right eq]
  have listed : (∀ i : Fin 8, i < b.signatureCount →
        (a.signatures i).horizontal ≠ 0 ∧ (a.signatures i).vertical ≠ 0) ↔
      ∀ i : Fin 8, i < b.signatureCount →
        (b.signatures i).horizontal ≠ 0 ∧ (b.signatures i).vertical ≠ 0 := by
    rw [count] at signatures
    refine forall_congr' fun i => imp_congr_right fun small => ?_
    rw [signatures i small]
  refine ⟨?_, ?_, mode⟩
  · unfold NativeCullSettings.validSettings NativeCullSettings.trims
    simp only [List.all_cons, List.all_nil, within outer, within nasal, within vertical,
      within percent, within horizontal, within fraction, channel, mode, count,
      decide_eq_decide.mpr listed]
  · unfold NativeCullSettings.anyTrim NativeCullSettings.trims
    simp only [List.any_cons, List.any_nil, Binary32.less_of_equal_right outer,
      Binary32.less_of_equal_right nasal, Binary32.less_of_equal_right vertical]

theorem usable_of_unchanged {last f : FrameInput} (same : Unchanged last f) :
    f.usable = last.usable := by
  obtain ⟨settings, frusta, dims⟩ := same
  obtain ⟨valid, trim, mode⟩ := validSettings_of_same settings
  unfold FrameInput.usable FrameInput.validInputs
  rw [valid, trim, mode, frusta, dims]

theorem PairNoted.mono {notes more : List CullCall} {pair : Eyes NativeCullDimensions}
    (noted : PairNoted notes pair) (sub : notes ⊆ more) : PairNoted more pair := by
  intro eye size isSize
  obtain ⟨mem, fits⟩ := noted eye size isSize
  exact ⟨sub mem, fits⟩

structure Tracked (calls : List CullCall) (g : NativeCullGuard) : Prop where
  quiet : g.stage ≠ .adopting → g.submittedMask = ⟨false, false⟩ ∧ g.submittedReady = false
  noted : ∀ eye size, g.submittedMask.get? eye = some true → g.submitted.get? eye = some size →
    .noteSubmittedSize eye size.width size.height ∈ (framesOf calls).notes ∧
      NativeCullGuard.plausibleSize size.width size.height
  complete : g.submittedReady = true → g.submittedMask = ⟨true, true⟩ ∧
    (g.route = .firstAsk ∨ ∃ notes ∈ (framesOf calls).earlier, PairNoted notes g.baseline)
  based : g.baselineReady = true →
    (∃ notes ∈ (framesOf calls).earlier, PairNoted notes g.baseline) ∨
      g.submittedMask = ⟨true, true⟩ ∧ PairNoted (framesOf calls).notes g.baseline
  stoodDown : .standDown ∈ (framesOf calls).notes → g.pendingStandDown = true
  frusta : g.trueFrusta = reportedFrusta calls
  last : ∀ f, (framesOf calls).last = some f →
    g.settings = f.settings ∧
      (f.validInputs = true → g.trueFrusta = f.trueFrusta ∧ g.runtime = f.runtimeDims)
  running : g.stage ≠ .off → ∃ f, (framesOf calls).last = some f ∧ f.usable = true

namespace Tracked

variable {math : CullMath} {calls : List CullCall} {g : NativeCullGuard} {f : FrameInput}

theorem pair (h : Tracked calls g) (both : g.submittedMask = ⟨true, true⟩) :
    PairNoted (framesOf calls).notes g.submitted := by
  intro eye size isSize
  apply h.noted eye size _ isSize
  rw [both]
  match eye, isSize with
  | 0, _ => rfl
  | 1, _ => rfl

theorem init : Tracked [] {} where
  quiet := fun _ => ⟨rfl, rfl⟩
  noted := by
    intro eye size noted
    match eye, noted with
    | 0, noted => cases noted
    | 1, noted => cases noted
  complete := nofun
  based := nofun
  stoodDown := nofun
  frusta := rfl
  last := nofun
  running := fun on => absurd rfl on

theorem unchanged (h : Tracked calls g) (on : g.stage ≠ .off) :
    ∃ last, (framesOf calls).last = some last ∧
      ((f.settings.sameSettings g.settings ∧ f.trueFrusta = g.trueFrusta ∧
        f.runtimeDims = g.runtime) ↔ Unchanged last f) := by
  obtain ⟨last, isLast, usable⟩ := h.running on
  obtain ⟨settings, geometry⟩ := h.last last isLast
  obtain ⟨frusta, dims⟩ := geometry (NativeCullGuard.validInputs_of_usable usable)
  refine ⟨last, isLast, ?_⟩
  rw [settings, frusta, dims]
  rfl

theorem beginFrame (h : Tracked calls g) (f : FrameInput) :
    Tracked (calls ++ [CullCall.beginFrame f]) (g.beginFrame math f) := by
  obtain ⟨settings, pending, baseline, ready⟩ := NativeCullGuard.beginFrame_settings math g f
  obtain ⟨frusta, dims⟩ := NativeCullGuard.beginFrame_geometry math g f
  obtain ⟨mask, fresh⟩ := NativeCullGuard.beginFrame_notes math h.quiet f
  refine ⟨fun _ => ⟨mask, fresh⟩, ?_, ?_, ?_, ?_, ?_, ?_, ?_⟩
  · intro eye size noted
    rw [mask] at noted
    match eye, noted with
    | 0, noted => cases noted
    | 1, noted => cases noted
  · intro complete
    rw [fresh] at complete
    cases complete
  · intro kept
    rw [baseline, framesOf_concat]
    refine .inl ?_
    dsimp only [Frames.advance]
    rcases h.based (ready kept) with ⟨notes, mem, noted⟩ | ⟨both, noted⟩
    · refine ⟨notes, ?_, noted⟩
      split
      · exact List.mem_append_left _ mem
      · exact mem
    · -- A mask is held in an adoption only, and an adoption has a frame behind it.
      have on : g.stage ≠ .off := by
        intro off
        have empty := (h.quiet (by rw [off]; nofun)).1
        rw [both] at empty
        cases empty
      obtain ⟨last, isLast, _⟩ := h.running on
      refine ⟨_, ?_, noted⟩
      rw [isLast, Option.isSome_some, if_pos rfl]
      exact List.mem_append_right _ (List.mem_singleton_self _)
  · intro mem
    rw [framesOf_concat] at mem
    cases mem
  · rw [frusta, h.frusta]
    simp [reportedFrusta]
  · intro last isLast
    rw [framesOf_concat] at isLast
    cases isLast
    refine ⟨settings, fun valid => ?_⟩
    rw [frusta, dims, valid]
    exact ⟨rfl, rfl⟩
  · intro on
    refine ⟨f, by rw [framesOf_concat]; rfl, ?_⟩
    rcases NativeCullGuard.beginFrame_cases math g f with ⟨_, begun⟩ | ⟨usable, _⟩
    · rw [begun] at on
      exact absurd rfl on
    · exact usable

theorem framesOf_more (calls : List CullCall) {call : CullCall} (more : ∀ f, call ≠ .beginFrame f) :
    framesOf (calls ++ [call]) =
      { framesOf calls with notes := (framesOf calls).notes ++ [call] } ∧
      reportedFrusta (calls ++ [call]) = reportedFrusta calls := by
  rw [framesOf_concat]
  cases call with
  | beginFrame f => exact absurd rfl (more f)
  | noteSubmittedSize eye width height => exact ⟨rfl, by simp [reportedFrusta]⟩
  | standDown => exact ⟨rfl, by simp [reportedFrusta]⟩

theorem more (h : Tracked calls g) {call : CullCall} (more : ∀ f, call ≠ .beginFrame f)
    (down : call = .standDown → g.pendingStandDown = true) : Tracked (calls ++ [call]) g := by
  obtain ⟨frames, frusta⟩ := framesOf_more calls more
  refine ⟨h.quiet, ?_, ?_, ?_, ?_, h.frusta.trans frusta.symm, ?_, ?_⟩
  all_goals rw [frames]
  · intro eye size noted isSize
    obtain ⟨mem, fits⟩ := h.noted eye size noted isSize
    exact ⟨List.mem_append_left _ mem, fits⟩
  · exact h.complete
  · intro ready
    rcases h.based ready with earlier | ⟨both, noted⟩
    · exact .inl earlier
    · exact .inr ⟨both, noted.mono (List.subset_append_left _ _)⟩
  · intro mem
    rcases List.mem_append.mp mem with mem | mem
    · exact h.stoodDown mem
    · exact down (List.mem_singleton.mp mem).symm
  · exact h.last
  · exact h.running

theorem standDown (h : Tracked calls g) : Tracked (calls ++ [CullCall.standDown]) g.standDown := by
  have down : Tracked calls g.standDown :=
    ⟨h.quiet, h.noted, h.complete, h.based, fun _ => rfl, h.frusta, h.last, h.running⟩
  exact down.more nofun fun _ => rfl

theorem noteSubmittedSize (h : Tracked calls g) (eye width height : Nat) :
    Tracked (calls ++ [CullCall.noteSubmittedSize eye width height])
      (g.noteSubmittedSize eye width height) := by
  have kept : Tracked (calls ++ [CullCall.noteSubmittedSize eye width height]) g := h.more nofun nofun
  have mem : .noteSubmittedSize eye width height ∈
      (framesOf (calls ++ [CullCall.noteSubmittedSize eye width height])).notes := by
    rw [framesOf_concat]
    exact List.mem_append_right _ (List.mem_singleton_self _)
  generalize calls ++ [CullCall.noteSubmittedSize eye width height] = calls at kept mem
  rcases NativeCullGuard.noteSubmittedSize_cases g eye width height with
    same | ⟨adopting, fits, fresh, pair, mask, isPair, isMask, ways⟩
  · rw [same]
    exact kept
  have incomplete : g.submittedMask ≠ ⟨true, true⟩ := by
    intro both
    rw [both] at fresh
    match eye, fresh with
    | 0, fresh => cases fresh
    | 1, fresh => cases fresh
  have quiet {P : Prop} (idle : g.stage ≠ .adopting) : P := absurd adopting idle
  have noted : ∀ i size, mask.get? i = some true → pair.get? i = some size →
      .noteSubmittedSize i size.width size.height ∈ (framesOf calls).notes ∧
        NativeCullGuard.plausibleSize size.width size.height := by
    intro i size isNoted isSize
    rw [isMask, Eyes.get?_set] at isNoted
    rw [isPair, Eyes.get?_set] at isSize
    by_cases here : i = eye
    · subst here
      rw [if_pos rfl] at isSize
      obtain ⟨_, _, rfl⟩ := Option.map_eq_some_iff.mp isSize
      exact ⟨mem, fits⟩
    · rw [if_neg here] at isNoted isSize
      exact kept.noted i size isNoted isSize
  have earlier (ready : g.baselineReady = true) :
      ∃ notes ∈ (framesOf calls).earlier, PairNoted notes g.baseline := by
    rcases kept.based ready with earlier | ⟨both, _⟩
    · exact earlier
    · exact absurd both incomplete
  rcases ways with ⟨isNoted, _⟩ | ⟨both, ⟨route, isNoted⟩ | isNoted⟩
  · rw [isNoted]
    refine ⟨quiet, noted, ?_, fun ready => .inl (earlier ready), kept.stoodDown, kept.frusta,
      kept.last, kept.running⟩
    intro ready
    exact absurd (kept.complete ready).1 incomplete
  · rw [isNoted]
    refine ⟨quiet, noted, fun _ => ⟨both, route.imp id earlier⟩, fun ready => .inl (earlier ready),
      kept.stoodDown, kept.frusta, kept.last, kept.running⟩
  · rw [isNoted]
    refine ⟨quiet, noted, nofun, fun _ => .inr ⟨both, ?_⟩, kept.stoodDown, kept.frusta,
      kept.last, kept.running⟩
    intro i size isSize
    apply noted i size _ isSize
    rw [both]
    match i, isSize with
    | 0, _ => rfl
    | 1, _ => rfl

theorem guardAfter (math : CullMath) (calls : List CullCall) :
    Tracked calls (guardAfter math calls) := by
  induction calls using List.reverseRecOn with
  | nil => exact init
  | append_singleton calls call ih =>
    rw [guardAfter_concat]
    cases call with
    | beginFrame f => exact ih.beginFrame f
    | noteSubmittedSize eye width height => exact ih.noteSubmittedSize eye width height
    | standDown => exact ih.standDown

end Tracked

section Runs

variable (math : CullMath) (calls : List CullCall)

theorem toldTruth (dead : (guardAfter math calls).stage ≠ .live) :
    ToldTruth math (guardAfter math calls) (reportedFrusta calls) where
  raw := by rw [NativeCullGuard.gameFrustumRaw, if_pos dead, (Tracked.guardAfter math calls).frusta]
  matrix := by
    rw [NativeCullGuard.gameFrustumMatrix, if_pos dead, (Tracked.guardAfter math calls).frusta]
  crop := if_pos dead
  placement := if_pos dead

theorem goes_live {call : CullCall} (live : (guardAfter math (calls ++ [call])).stage = .live)
    (dead : (guardAfter math calls).stage ≠ .live) :
    ∃ f, call = .beginFrame f ∧ ProvenRebuild calls (guardAfter math calls) f := by
  have tracked := Tracked.guardAfter math calls
  rw [guardAfter_concat] at live
  generalize guardAfter math calls = g at tracked live dead
  cases call with
  | noteSubmittedSize eye width height =>
    rcases NativeCullGuard.noteSubmittedSize_cases g eye width height with
      same | ⟨adopting, _, _, _, _, _, _, ⟨noted, _⟩ | ⟨_, ⟨_, noted⟩ | noted⟩⟩
    · have live : (g.noteSubmittedSize eye width height).stage = .live := live
      rw [same] at live
      exact absurd live dead
    all_goals
      have live : (g.noteSubmittedSize eye width height).stage = .live := live
      rw [noted] at live
      exact absurd live dead
  | standDown => exact absurd live dead
  | beginFrame f =>
    obtain ⟨same, stays | ⟨adopting, ready, _⟩⟩ := NativeCullGuard.beginFrame_live math live
    · exact absurd stays dead
    obtain ⟨last, isLast, unchanged⟩ := tracked.unchanged (f := f) (by rw [adopting]; nofun)
    obtain ⟨both, baseline⟩ := tracked.complete ready
    exact ⟨f, rfl, adopting, ⟨last, isLast, unchanged.mp same⟩, tracked.pair both, baseline⟩

theorem stays_live {f : FrameInput}
    (live : (guardAfter math (calls ++ [CullCall.beginFrame f])).stage = .live) :
    ∃ last, (framesOf calls).last = some last ∧ Unchanged last f := by
  rw [guardAfter_concat] at live
  obtain ⟨same, stage⟩ := NativeCullGuard.beginFrame_live math live
  have on : (guardAfter math calls).stage ≠ .off := by
    rcases stage with stage | ⟨stage, _⟩
    · rw [stage]
      nofun
    · rw [stage]
      nofun
  obtain ⟨last, isLast, unchanged⟩ := (Tracked.guardAfter math calls).unchanged on
  exact ⟨last, isLast, unchanged.mp same⟩

theorem stays_inert {calls : List CullCall} (more : List CullCall) {last : FrameInput}
    (inert : (guardAfter math calls).stage = .inert)
    (forced : (guardAfter math calls).forcedInert = true)
    (isLast : (framesOf calls).last = some last) (same : UnchangedThrough last more) :
    (guardAfter math (calls ++ more)).stage = .inert := by
  induction more generalizing calls last with
  | nil =>
    rwa [List.append_nil]
  | cons call more ih =>
    rw [← List.singleton_append, ← List.append_assoc]
    cases call with
    | beginFrame f =>
      obtain ⟨unchanged, same⟩ := same
      have tracked := Tracked.guardAfter math calls
      have on : (guardAfter math calls).stage ≠ .off := by
        rw [inert]
        nofun
      obtain ⟨other, isOther, usable⟩ := tracked.running on
      obtain ⟨alike, isAlike, iff⟩ := tracked.unchanged on
      rw [isLast] at isOther isAlike
      cases isOther
      cases isAlike
      obtain ⟨settings, frusta, dims⟩ := iff.mpr unchanged
      rw [← usable_of_unchanged unchanged] at usable
      obtain ⟨inert, forced⟩ :=
        NativeCullGuard.beginFrame_forced math usable inert forced settings frusta dims
      apply ih _ _ _ same
      · rw [guardAfter_concat]
        exact inert
      · rw [guardAfter_concat]
        exact forced
      · rw [framesOf_concat]
        rfl
    | noteSubmittedSize eye width height =>
      have kept : guardAfter math (calls ++ [CullCall.noteSubmittedSize eye width height]) =
          guardAfter math calls := by
        rw [guardAfter_concat]
        rcases NativeCullGuard.noteSubmittedSize_cases (guardAfter math calls) eye width height with
          kept | ⟨adopting, _⟩
        · exact kept
        · rw [inert] at adopting
          cases adopting
      refine ih ?_ ?_ ?_ same
      · rw [kept]
        exact inert
      · rw [kept]
        exact forced
      · rw [framesOf_concat]
        exact isLast
    | standDown =>
      refine ih ?_ ?_ ?_ same
      · rw [guardAfter_concat]
        exact inert
      · rw [guardAfter_concat]
        exact forced
      · rw [framesOf_concat]
        exact isLast

/-- The game is told another frustum, and the image is cropped and placed, in the
live stage alone. That stage is entered by a frame with a proven rebuild behind it
and is left by the frame that brings a change; a stand-down takes effect at the next frame,
where that is usable, and lasts until a change. -/
theorem lies_only_after_rebuild :
    ((guardAfter math calls).stage ≠ .live →
      (guardAfter math calls).runtimeFrustum = reportedFrusta calls ∧
        ToldTruth math (guardAfter math calls) (reportedFrusta calls)) ∧
    (∀ call, (guardAfter math calls).stage ≠ .live →
      (guardAfter math (calls ++ [call])).stage = .live →
        ∃ f, call = .beginFrame f ∧ ProvenRebuild calls (guardAfter math calls) f) ∧
    (∀ f, (¬∃ last, (framesOf calls).last = some last ∧ Unchanged last f) →
      (guardAfter math (calls ++ [CullCall.beginFrame f])).stage ≠ .live) ∧
    (∀ f, f.usable = true → .standDown ∈ (framesOf calls).notes →
      (guardAfter math (calls ++ [CullCall.beginFrame f])).stage = .inert) ∧
    ∀ f more, .standDown ∈ (framesOf calls).notes →
      (guardAfter math (calls ++ [CullCall.beginFrame f])).stage = .inert → UnchangedThrough f more →
        (guardAfter math (calls ++ [CullCall.beginFrame f] ++ more)).stage = .inert := by
  refine ⟨fun dead => ⟨(Tracked.guardAfter math calls).frusta, toldTruth math calls dead⟩,
    fun call dead live => goes_live math calls live dead,
    fun f changed live => changed (stays_live math calls live), fun f usable down => ?_, ?_⟩
  · rw [guardAfter_concat]
    exact (NativeCullGuard.beginFrame_stoodDown math usable
      ((Tracked.guardAfter math calls).stoodDown down)).1
  intro f more down inert same
  have pending := (Tracked.guardAfter math calls).stoodDown down
  have tracked := Tracked.guardAfter math (calls ++ [CullCall.beginFrame f])
  have isLast : (framesOf (calls ++ [CullCall.beginFrame f])).last = some f := by
    rw [framesOf_concat]
    rfl
  obtain ⟨last, isLast', usable⟩ := tracked.running (by rw [inert]; nofun)
  rw [isLast] at isLast'
  cases isLast'
  have forced : (guardAfter math (calls ++ [CullCall.beginFrame f])).forcedInert = true := by
    rw [guardAfter_concat]
    exact (NativeCullGuard.beginFrame_stoodDown math usable pending).2
  exact stays_inert math more inert forced isLast same

end Runs

/-- A game that builds what it is told, and a frustum widened by nothing. -/
def plainMath : CullMath where
  computeWidened := fun _ frusta _ =>
    some ⟨frusta, frusta, ⟨0x3f800000, 0x3f800000⟩, ⟨0x3f800000, 0x3f800000⟩, 0x3f800000,
      0x3f800000⟩
  recommendedDim := fun v _ => v
  canonicalDim := fun v _ => v
  askMoved := fun ask was => ask != was
  reached := fun submitted baseline _ _ => submitted == baseline
  inside := fun _ _ => {}

def plainFrame : FrameInput where
  settings := { mode := .percent }
  trueFrusta := ⟨⟨0xbf800000, 0x3f800000, 0xbf800000, 0x3f800000⟩,
    ⟨0xbf800000, 0x3f800000, 0xbf800000, 0x3f800000⟩⟩
  runtimeDims := ⟨⟨2000, 2000⟩, ⟨2000, 2000⟩⟩
  sceneReady := true

def twoPairs : List CullCall :=
  [.beginFrame plainFrame, .noteSubmittedSize 0 2000 2000, .noteSubmittedSize 1 2000 2000,
    .beginFrame plainFrame, .noteSubmittedSize 1 2000 2000, .noteSubmittedSize 0 2000 2000]

theorem lies_only_after_rebuild_twoPairs :
    (guardAfter plainMath (twoPairs ++ [CullCall.beginFrame plainFrame])).stage = .live ∧
      ∃ f, CullCall.beginFrame plainFrame = .beginFrame f ∧
        ProvenRebuild twoPairs (guardAfter plainMath twoPairs) f := by
  have live : (guardAfter plainMath (twoPairs ++ [CullCall.beginFrame plainFrame])).stage = .live := by
    decide +kernel
  exact ⟨live, (lies_only_after_rebuild plainMath twoPairs).2.1 _ (by decide +kernel) live⟩

end EdvrPatch.Cull
