import EdvrPatch.HeadOffset.Stays

/-! The counted camera view. Off foot the count runs on without end, on foot it goes round a ring,
and stepping out of a vehicle puts it back to zero where the ring lacks it. The step is seen only
between two known samples in a row. -/
namespace EdvrPatch.HeadOffset

def lastKnown (calls : List GateCall) : Option Bool :=
  calls.foldl (fun last call => match call with
    | .setOnFootLive true onFoot _ => some onFoot
    | _ => last) none

namespace Gate

structure Viewed where
  index : Int
  known : Bool
  onFoot : Bool
  count : Int
  wantsPanel : Bool
  deriving DecidableEq

def viewed (g : Gate) : Viewed :=
  ⟨g.gateViewIndex, g.liveOnFootKnown, g.liveOnFoot, g.gateViewCount, g.wantsPanel⟩

variable {g : Gate}

theorem newFootSession_viewed (g : Gate) (journalSaysSo : Bool) (now : Nat → Nat) :
    (g.headOffsetGateNewFootSession journalSaysSo now).viewed = g.viewed := by
  have graced : (if journalSaysSo then { g with footGraceJournal := true, footGraceMs := stampMs (now 0) }
      else g).viewed = g.viewed := either viewed rfl rfl
  have passed : ∀ d : Gate, (if elapsedMs (now 1) d.lastFootResetMs kNewFootSessionMs then
      { d with lastFootResetMs := 0 } else d).viewed = d.viewed := fun d => either viewed rfl rfl
  exact either viewed ((passed _).trans graced) ((passed _).trans graced)

theorem panelFrame_viewed (g : Gate) (now : Nat → Nat) : (g.panelFrame now).viewed = g.viewed := by
  have begun : (if elapsedMs (now 0) g.awaySceneMs kNewFootSessionMs then
      g.headOffsetGateNewFootSession false fun k => now (1 + k) else g).viewed = g.viewed :=
    either viewed (newFootSession_viewed g false _) rfl
  unfold panelFrame
  generalize (if elapsedMs (now 0) g.awaySceneMs kNewFootSessionMs then
      g.headOffsetGateNewFootSession false fun k => now (1 + k) else g) = d at begun
  rw [← begun]
  exact either viewed rfl (either viewed rfl rfl)

theorem gapFrame_viewed (g : Gate) (eyeDraws : Nat) (now : Nat → Nat) :
    (g.gapFrame eyeDraws now).viewed = g.viewed := by
  have entered : ∀ d : Gate, (d.enter eyeDraws now).viewed = d.viewed := fun d => either viewed rfl rfl
  have boarded : ∀ d : Gate, d.board.viewed = d.viewed := fun d => either viewed rfl rfl
  have idled : ∀ d : Gate, (d.idleOrAway eyeDraws now).viewed = d.viewed := fun d =>
    either viewed (either viewed rfl rfl) (either viewed rfl rfl)
  have dropped : ∀ d : Gate, (d.dropCredit now).viewed = d.viewed := fun d => either viewed rfl rfl
  exact (((dropped _).trans (idled _)).trans (boarded _)).trans (entered _)

theorem drawn_viewed (g : Gate) (f : GateFrame) : (g.drawn f).viewed = g.viewed :=
  either viewed (panelFrame_viewed g f.now)
    (either viewed rfl (gapFrame_viewed g f.eyeDraws f.now))

theorem normalizeView_bounds (g : Gate) (v : Int) :
    0 ≤ g.normalizeView v ∧ (0 < g.currentRing → g.normalizeView v < g.currentRing) := by
  unfold normalizeView
  dsimp only
  split
  · rename_i open'
    refine ⟨?_, fun positive => absurd positive (Int.not_lt.mpr open')⟩
    split <;> omega
  · rename_i closed
    have positive : 0 < g.currentRing := Int.not_le.mp closed
    have upper := Int.tmod_lt_of_pos v positive
    have lower := Int.lt_tmod_of_pos v positive
    split <;> exact ⟨by omega, fun _ => by omega⟩

theorem frame_viewed (wants : g.wantsPanel = true) (f : GateFrame) :
    (g.headOffsetGateFrame f).viewed = g.viewed ∨
      ∃ v, (g.headOffsetGateFrame f).viewed = { g.viewed with index := g.normalizeView v } := by
  obtain ⟨settled, same⟩ := frame_eq wants f
  rw [same]
  have drawn := drawn_viewed { g with panelSettled := settled } f
  generalize { g with panelSettled := settled }.drawn f = d at drawn
  have expired : (d.readView.publish.expireIntent f.now).viewed = d.readView.viewed :=
    either viewed rfl rfl
  rw [expired]
  have noted : (if 0 ≤ d.viewOverride then { d with gateViewEverRead := true } else d).viewed =
      d.viewed := either viewed rfl rfl
  unfold readView
  dsimp only
  generalize (if 0 ≤ d.viewOverride then { d with gateViewEverRead := true } else d) = e at noted
  have same : e.viewed = g.viewed := noted.trans drawn
  split
  · refine .inr ⟨d.viewOverride, ?_⟩
    have ring : e.normalizeView d.viewOverride = g.normalizeView d.viewOverride := by
      unfold normalizeView currentRing
      simp only [viewed, Viewed.mk.injEq] at same
      rw [same.2.1, same.2.2.1, same.2.2.2.1]
    rw [← ring, ← same]
    rfl
  · exact .inl same

/-- A call that is no sample leaves the count, or puts it where the ring has it. -/
def Turned (g g' : Gate) : Prop :=
  ∃ i, g'.viewed = { g.viewed with index := i } ∧
    (i = g.gateViewIndex ∨ 0 ≤ i ∧ (0 < g.currentRing → i < g.currentRing))

/-- Where the gate is not configured there is nothing for a frame to reset. -/
def Idle (g : Gate) : Prop := g.wantsPanel = false → (g.gateInCamera, g.gateExternal) = (false, false)

theorem turned_of_same {g' : Gate} (same : g'.viewed = g.viewed) : g.Turned g' :=
  ⟨g.gateViewIndex, same, .inl rfl⟩

theorem frame_turned (idle : g.Idle) (f : GateFrame) : g.Turned (g.headOffsetGateFrame f) := by
  cases wants : g.wantsPanel with
  | true =>
    rcases frame_viewed wants f with same | ⟨v, moved⟩
    · exact turned_of_same same
    · exact ⟨_, moved, .inr (g.normalizeView_bounds v)⟩
  | false =>
    obtain ⟨outside, internal⟩ := Prod.mk.inj (idle wants)
    unfold headOffsetGateFrame
    rw [if_pos (by rw [wants]; decide), if_neg (by rw [outside, internal]; decide)]
    exact turned_of_same rfl

theorem step_turned (idle : g.Idle) {call : GateCall} (noSample : ∀ k o s, call ≠ .setOnFootLive k o s) :
    g.Turned (g.step call) := by
  match call with
  | .keyPressed _ => exact turned_of_same rfl
  | .stepView delta => exact ⟨_, rfl, .inr (g.normalizeView_bounds _)⟩
  | .setOnFootLive k o s => exact absurd rfl (noSample k o s)
  | .setWakeLive known inSupercruise inTunnel =>
    show g.Turned (g.headOffsetGateSetWakeLive known inSupercruise inTunnel)
    unfold headOffsetGateSetWakeLive
    split
    · exact turned_of_same rfl
    · dsimp only
      split
      · exact ⟨0, rfl, .inr ⟨Int.le_refl 0, id⟩⟩
      · exact turned_of_same rfl
  | .newFootSession journalSaysSo now => exact turned_of_same (newFootSession_viewed g journalSaysSo now)
  | .noteEmbark => exact turned_of_same rfl
  | .setView _ => exact turned_of_same rfl
  | .setKeyBound _ => exact turned_of_same rfl
  | .frame f => exact frame_turned idle f

theorem newFootSession_external (g : Gate) (journalSaysSo : Bool) (now : Nat → Nat) :
    (g.headOffsetGateNewFootSession journalSaysSo now).gateExternal = g.gateExternal := by
  have graced : (if journalSaysSo then { g with footGraceJournal := true, footGraceMs := stampMs (now 0) }
      else g).gateExternal = g.gateExternal := either gateExternal rfl rfl
  have passed : ∀ d : Gate, (if elapsedMs (now 1) d.lastFootResetMs kNewFootSessionMs then
      { d with lastFootResetMs := 0 } else d).gateExternal = d.gateExternal := fun d =>
    either gateExternal rfl rfl
  exact either gateExternal ((passed _).trans graced) ((passed _).trans graced)

theorem step_idle (idle : g.Idle) (call : GateCall) : (g.step call).Idle := by
  have other : ∀ c : GateCall, c.frame? = none → (g.step c).gateExternal = g.gateExternal →
      (g.step c).Idle := by
    intro c isOther external off
    obtain ⟨wants, _, _, _, camera⟩ := stay_eq (step_other isOther g)
    rw [external, camera]
    exact idle (wants.symm.trans off)
  match call with
  | .keyPressed _ => exact other _ rfl rfl
  | .stepView _ => exact other _ rfl rfl
  | .setOnFootLive _ _ _ => exact other _ rfl rfl
  | .setWakeLive known _ _ => exact other _ rfl (either gateExternal rfl rfl)
  | .newFootSession journalSaysSo now => exact other _ rfl (newFootSession_external g journalSaysSo now)
  | .noteEmbark => exact other _ rfl rfl
  | .setView _ => exact other _ rfl rfl
  | .setKeyBound _ => exact other _ rfl rfl
  | .frame f =>
    intro off
    obtain ⟨i, same, _⟩ := frame_turned idle f
    have wants : (g.headOffsetGateFrame f).wantsPanel = g.wantsPanel := congrArg Viewed.wantsPanel same
    have alsoOff : g.wantsPanel = false := wants.symm.trans off
    obtain ⟨outside, internal⟩ := Prod.mk.inj (idle alsoOff)
    show ((g.headOffsetGateFrame f).gateInCamera, (g.headOffsetGateFrame f).gateExternal) = _
    unfold headOffsetGateFrame
    rw [if_pos (by rw [alsoOff]; decide), if_neg (by rw [outside, internal]; decide)]
    exact idle alsoOff

end Gate

/-- What holds after every sequence of calls, with the count of views as configured. -/
structure Tracked (cfg : GateConfig) (before : List GateCall) : Prop where
  idle : (gateAfter cfg before).Idle
  count : (gateAfter cfg before).gateViewCount = cfg.viewCount
  positive : 0 ≤ (gateAfter cfg before).gateViewIndex
  last : (gateAfter cfg before).liveOnFootKnown = true →
    lastKnown before = some (gateAfter cfg before).liveOnFoot

section

variable {cfg : GateConfig} {before : List GateCall} {call : GateCall}

theorem lastKnown_snoc (before : List GateCall) (call : GateCall) :
    lastKnown (before ++ [call]) = match call with
      | .setOnFootLive true onFoot _ => some onFoot
      | _ => lastKnown before := by
  unfold lastKnown
  rw [List.foldl_append]
  rfl

theorem lastKnown_other (noSample : ∀ k o s, call ≠ .setOnFootLive k o s) :
    lastKnown (before ++ [call]) = lastKnown before := by
  rw [lastKnown_snoc]
  match call with
  | .keyPressed _ | .stepView _ | .setWakeLive _ _ _ | .newFootSession _ _ | .noteEmbark | .setView _
  | .setKeyBound _ | .frame _ => rfl
  | .setOnFootLive k o s => exact absurd rfl (noSample k o s)

theorem Tracked.snoc (h : Tracked cfg before) (call : GateCall) : Tracked cfg (before ++ [call]) := by
  by_cases sample : ∃ k o s, call = .setOnFootLive k o s
  · obtain ⟨known, onFoot, s, rfl⟩ := sample
    have isAfter := gateAfter_snoc cfg before (.setOnFootLive known onFoot s)
    refine ⟨isAfter ▸ Gate.step_idle h.idle _, isAfter ▸ h.count, ?_, ?_⟩
    · rw [isAfter]
      show 0 ≤ ite _ _ _
      split
      · exact Int.le_refl 0
      · exact h.positive
    · rw [isAfter, lastKnown_snoc]
      intro isKnown
      obtain rfl : known = true := isKnown
      rfl
  · have noSample : ∀ k o s, call ≠ .setOnFootLive k o s := fun k o s same => sample ⟨k, o, s, same⟩
    have isAfter := gateAfter_snoc cfg before call
    obtain ⟨i, same, turned⟩ := Gate.step_turned h.idle noSample
    rw [← isAfter] at same
    simp only [Gate.viewed, Gate.Viewed.mk.injEq] at same
    obtain ⟨index, known, onFoot, count, _⟩ := same
    refine ⟨isAfter ▸ Gate.step_idle h.idle call, count.trans h.count, ?_, fun isKnown => ?_⟩
    · rw [index]
      rcases turned with rfl | ⟨positive, _⟩
      · exact h.positive
      · exact positive
    · rw [lastKnown_other noSample, onFoot]
      exact h.last (known.symm.trans isKnown)

theorem tracked (cfg : GateConfig) (before : List GateCall) : Tracked cfg before := by
  induction before using List.reverseRecOn with
  | nil => exact ⟨fun _ => rfl, rfl, Int.le_refl 0, nofun⟩
  | append_singleton before call ih => exact ih.snoc call

def InRing (cfg : GateConfig) (before : List GateCall) : Prop :=
  (gateAfter cfg before).liveOnFootKnown = true → (gateAfter cfg before).liveOnFoot = true →
    0 ≤ (gateAfter cfg before).gateViewIndex ∧ (gateAfter cfg before).gateViewIndex < cfg.viewCount

/-- The rule on stepping out: the status comes to be known on foot, and the last that was
known was off foot. -/
def Clamps (cfg : GateConfig) (before : List GateCall) (sample : Nat) : Prop :=
  lastKnown before = some false →
    (gateAfter cfg (before ++ [GateCall.setOnFootLive true true sample])).gateViewIndex =
      if cfg.viewCount ≤ (gateAfter cfg before).gateViewIndex then 0 else (gateAfter cfg before).gateViewIndex

structure StepsOut (cfg : GateConfig) (calls : List GateCall) : Prop where
  clamps : ∀ before sample after, calls = before ++ GateCall.setOnFootLive true true sample :: after →
    Clamps cfg before sample
  inRing : ∀ before after, calls = before ++ after → InRing cfg before

/-- The sample that finds the player on foot comes right after a known one, or finds a
count that the ring has. -/
def Noticed (cfg : GateConfig) (before : List GateCall) : Prop :=
  (gateAfter cfg before).liveOnFootKnown = true ∨ (gateAfter cfg before).gateViewIndex < cfg.viewCount

theorem index_onFoot (positive : 0 < cfg.viewCount) (before : List GateCall) (sample : Nat) :
    (gateAfter cfg (before ++ [GateCall.setOnFootLive true true sample])).gateViewIndex =
      if (gateAfter cfg before).liveOnFootKnown = true ∧ (gateAfter cfg before).liveOnFoot = false ∧
        cfg.viewCount ≤ (gateAfter cfg before).gateViewIndex then 0
      else (gateAfter cfg before).gateViewIndex := by
  have count := (tracked cfg before).count
  rw [gateAfter_snoc]
  show ite _ _ _ = _
  refine if_congr ?_ rfl rfl
  rw [count]
  simp [positive, and_assoc]

theorem clamps_of_noticed (positive : 0 < cfg.viewCount) (sample : Nat) (noticed : Noticed cfg before) :
    Clamps cfg before sample := by
  intro offFoot
  rw [index_onFoot positive before sample]
  cases known : (gateAfter cfg before).liveOnFootKnown with
  | true =>
    have isOff := (tracked cfg before).last known
    rw [offFoot] at isOff
    rw [← Option.some.inj isOff]
    simp
  | false =>
    rcases noticed with isKnown | below
    · exact absurd (known.symm.trans isKnown) (by decide)
    · rw [if_neg (by simp), if_neg (Int.not_le.mpr below)]

theorem InRing.snoc (positive : 0 < cfg.viewCount) (h : InRing cfg before)
    (noticed : ∀ s, call = .setOnFootLive true true s → Noticed cfg before) :
    InRing cfg (before ++ [call]) := by
  intro known onFoot
  refine ⟨(tracked cfg _).positive, ?_⟩
  by_cases sample : ∃ k o s, call = .setOnFootLive k o s
  · obtain ⟨k, o, s, rfl⟩ := sample
    have isAfter := gateAfter_snoc cfg before (.setOnFootLive k o s)
    rw [isAfter] at known onFoot
    obtain rfl : k = true := known
    obtain rfl : o = true := onFoot
    rw [index_onFoot positive before s]
    split
    · exact positive
    · rename_i kept
      rcases noticed s rfl with isKnown | below
      · cases isOn : (gateAfter cfg before).liveOnFoot with
        | true => exact (h isKnown isOn).2
        | false => exact Int.not_le.mp fun past => kept ⟨isKnown, isOn, past⟩
      · exact below
  · have noSample : ∀ k o s, call ≠ .setOnFootLive k o s := fun k o s same => sample ⟨k, o, s, same⟩
    have old := tracked cfg before
    obtain ⟨i, same, turned⟩ := Gate.step_turned old.idle noSample
    rw [← gateAfter_snoc] at same
    simp only [Gate.viewed, Gate.Viewed.mk.injEq] at same
    obtain ⟨index, isKnown, isOnFoot, _, _⟩ := same
    rw [isKnown] at known
    rw [isOnFoot] at onFoot
    have ring : (gateAfter cfg before).currentRing = cfg.viewCount := by
      unfold Gate.currentRing
      rw [known, onFoot]
      exact old.count
    rw [index]
    rcases turned with rfl | ⟨_, below⟩
    · exact (h known onFoot).2
    · rw [ring] at below
      exact below positive

theorem inRing_of_noticed (positive : 0 < cfg.viewCount) {calls : List GateCall}
    (noticed : ∀ before sample after, calls = before ++ GateCall.setOnFootLive true true sample :: after →
      Noticed cfg before) :
    ∀ before after, calls = before ++ after → InRing cfg before := by
  intro before
  induction before using List.reverseRecOn with
  | nil => exact fun _ _ known => nomatch known
  | append_singleton before call ih =>
    intro after split
    have isSplit : calls = before ++ call :: after := by rw [split, List.append_assoc]; rfl
    refine (ih (call :: after) isSplit).snoc positive ?_
    rintro s rfl
    exact noticed before s after isSplit

end

/-- The count is never negative, and it follows the rule on stepping out just where no
sample finds the player on foot after an unknown one with a count past the ring. -/
theorem countedView_stepsOut (cfg : GateConfig) (positive : 0 < cfg.viewCount) (calls : List GateCall) :
    (∀ before after, calls = before ++ after → 0 ≤ (gateAfter cfg before).gateViewIndex) ∧
    (StepsOut cfg calls ↔ ∀ before sample after,
      calls = before ++ GateCall.setOnFootLive true true sample :: after → Noticed cfg before) := by
  refine ⟨fun before _ _ => (tracked cfg before).positive, fun follows before sample after split => ?_,
    fun noticed => ⟨fun before sample after split => ?_, inRing_of_noticed positive noticed⟩⟩
  · have split' : calls = (before ++ [GateCall.setOnFootLive true true sample]) ++ after := by
      rw [split, List.append_assoc]; rfl
    have isAfter := gateAfter_snoc cfg before (.setOnFootLive true true sample)
    have ring := follows.inRing _ _ split' (by rw [isAfter]; rfl) (by rw [isAfter]; rfl)
    cases known : (gateAfter cfg before).liveOnFootKnown with
    | true => exact .inl known
    | false =>
      rw [index_onFoot positive before sample, known, if_neg (by simp)] at ring
      exact .inr ring.2
  · exact clamps_of_noticed positive sample (noticed before sample after split)

/-- Eight views in a vehicle, and a step out that the next sample sees. -/
def seenStep : List GateCall :=
  [GateCall.setOnFootLive true false 1] ++ List.replicate 8 (GateCall.stepView 1) ++ [GateCall.setOnFootLive true true 2]

def missedStep : List GateCall :=
  [GateCall.setOnFootLive true false 1] ++ List.replicate 8 (GateCall.stepView 1) ++
    [GateCall.setOnFootLive false false 2, .setOnFootLive true true 3]

theorem noticed_seen {before after : List GateCall} {sample : Nat}
    (split : seenStep = before ++ GateCall.setOnFootLive true true sample :: after) : Noticed {} before := by
  have isBefore : before = seenStep.take before.length := by rw [split, List.take_left]
  have isSample : seenStep[before.length]? = some (.setOnFootLive true true sample) := by
    rw [split, List.getElem?_append_right (Nat.le_refl _), Nat.sub_self]
    rfl
  have short : before.length < 10 := by
    have all : 10 = _ := congrArg List.length split
    rw [List.length_append, List.length_cons] at all
    omega
  generalize before.length = k at isBefore isSample short
  subst isBefore
  rcases Nat.lt_or_ge k 9 with early | last
  · have none : ∀ k < 9, ∀ s, seenStep[k]? ≠ some (.setOnFootLive true true s) := by
      intro k lt s
      match k, lt with
      | 0, _ | 1, _ | 2, _ | 3, _ | 4, _ | 5, _ | 6, _ | 7, _ | 8, _ => exact nofun
    exact absurd isSample (none k early sample)
  · obtain rfl : k = 9 := by omega
    exact .inl (by decide +kernel)

theorem countedView_stepsOut_seen : 8 ≤ (gateAfter {} (seenStep.take 9)).gateViewIndex ∧
    (gateAfter {} seenStep).gateViewIndex = 0 ∧ StepsOut {} seenStep :=
  ⟨by decide +kernel, by decide +kernel,
    (countedView_stepsOut {} (by decide) seenStep).2.mpr fun _ _ _ split => noticed_seen split⟩

/-- After the unknown sample the player is on foot, and the count is still eight of six. -/
theorem countedView_past_ring : ¬StepsOut {} missedStep := by
  intro follows
  have ring := follows.inRing missedStep [] (List.append_nil _).symm (by decide +kernel) (by decide +kernel)
  exact absurd ring (by decide +kernel)

end EdvrPatch.HeadOffset
