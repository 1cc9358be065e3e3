import EdvrPatch.OpenXr.FrameCycleStats

/-! The phases of every cycle that is admitted to a window make up the cycle. The marks of a cycle
are a chain; a clock that ran backwards between the second eye and the next wait shows as a residual
of a whole turn of the counter. -/
namespace EdvrPatch.OpenXr

open Lib FrameCycle

namespace FrameCycle

theorem toMs_nonneg (ticks : UInt64) : 0 ≤ toMs ticks := by
  unfold toMs
  positivity

variable {a b : UInt64}

theorem toMs_add {c : UInt64} (sum : a.toNat + b.toNat = c.toNat) : toMs a + toMs b = toMs c := by
  unfold toMs
  rw [← sum]
  push_cast
  ring

theorem toNat_sub_add (le : b ≤ a) : b.toNat + (a - b).toNat = a.toNat := by
  rw [UInt64.toNat_sub_of_le a b le]
  have := UInt64.le_iff_toNat_le.mp le
  omega

theorem toNat_add_of_le {c : UInt64} (le : a.toNat + b.toNat ≤ c.toNat) :
    (a + b).toNat = a.toNat + b.toNat := by
  have := c.toNat_lt
  rw [UInt64.toNat_add, Nat.mod_eq_of_lt (by omega)]

/-- The parts make up an interval, and where there was one present, what was outside it is
what came before and what came after. -/
structure PostParts.Partition (p : PostParts) (interval : ℚ) (singlePresent : Bool) : Prop where
  rawPresent : 0 ≤ p.rawPresent
  edvrBeforePresent : 0 ≤ p.edvrBeforePresent
  edvrAfterPresent : 0 ≤ p.edvrAfterPresent
  trailingCallback : 0 ≤ p.trailingCallback
  outsidePresent : 0 ≤ p.outsidePresent
  sum : p.outsidePresent + p.rawPresent + p.edvrBeforePresent + p.edvrAfterPresent +
    p.trailingCallback = interval
  edvrPresent : p.edvrPresent = p.edvrBeforePresent + p.edvrAfterPresent
  postResidual : p.postResidual = 0
  single : singlePresent = true → 0 ≤ p.beforePresent ∧ 0 ≤ p.afterPresent ∧
    p.beforePresent + p.afterPresent = p.outsidePresent

structure Sample.Partition (s : Sample) : Prop where
  beforeFirst : 0 ≤ s.beforeFirst
  firstSubmit : 0 ≤ s.firstSubmit
  betweenEyes : 0 ≤ s.betweenEyes
  secondSubmit : 0 ≤ s.secondSubmit
  afterSecond : 0 ≤ s.afterSecond
  nextWait : 0 ≤ s.nextWait
  sum : s.beforeFirst + s.firstSubmit + s.betweenEyes + s.secondSubmit + s.afterSecond +
    s.nextWait = s.cycle
  residual : s.residual = 0
  post : s.postValid = true → s.post.Partition s.afterSecond s.singlePresent

/-- The spans so far lie one after another between the two ends. -/
structure PostSums.Within (sums : PostSums) (beginUs endUs : UInt64) : Prop where
  reached : beginUs.toNat + sums.covered.toNat ≤ sums.previousEnd.toNat
  inside : sums.previousEnd.toNat ≤ endUs.toNat
  split : sums.raw.toNat + sums.before.toNat + sums.after.toNat + sums.trailing.toNat =
    sums.covered.toNat

variable {callerThread : UInt32} {beginUs endUs : UInt64} {s : PresentSpan}

theorem spanFault_none {previousEnd : UInt64}
    (fits : spanFault callerThread beginUs endUs previousEnd s = none) :
    s.endUs ≤ endUs ∧ previousEnd ≤ s.beginUs ∧
      ordered s.beginUs s.realBeginUs s.realEndUs s.bodyEndUs ∧ s.bodyEndUs ≤ s.endUs := by
  unfold spanFault at fits
  split at fits
  · cases fits
  rename_i inInterval
  split at fits
  · cases fits
  split at fits
  · cases fits
  split at fits
  · cases fits
  split at fits
  · cases fits
  rename_i wellFormed
  simp only [not_or, not_not, UInt64.not_lt] at inInterval wellFormed
  exact ⟨inInterval.2.2, wellFormed⟩

variable {sums : PostSums}

theorem PostSums.Within.add (within : sums.Within beginUs endUs)
    (fits : spanFault callerThread beginUs endUs sums.previousEnd s = none) :
    (sums.add s).Within beginUs endUs := by
  obtain ⟨ends, follows, ⟨-, starts, runs, closes⟩, trails⟩ := spanFault_none fits
  have opens := toNat_sub_add starts
  have body := toNat_sub_add runs
  have rest := toNat_sub_add closes
  have trail := toNat_sub_add trails
  have whole := toNat_sub_add (UInt64.le_trans starts
    (UInt64.le_trans runs (UInt64.le_trans closes trails)))
  rw [UInt64.le_iff_toNat_le] at ends follows
  obtain ⟨reached, inside, isSplit⟩ := within
  have covered := toNat_add_of_le (a := sums.covered) (b := s.endUs - s.beginUs) (c := endUs)
    (by omega)
  have before := toNat_add_of_le (a := sums.before) (b := s.realBeginUs - s.beginUs) (c := endUs)
    (by omega)
  have raw := toNat_add_of_le (a := sums.raw) (b := s.realEndUs - s.realBeginUs) (c := endUs)
    (by omega)
  have after := toNat_add_of_le (a := sums.after) (b := s.bodyEndUs - s.realEndUs) (c := endUs)
    (by omega)
  have trailing := toNat_add_of_le (a := sums.trailing) (b := s.endUs - s.bodyEndUs) (c := endUs)
    (by omega)
  refine ⟨?_, ends, ?_⟩
  · change beginUs.toNat + (sums.covered + (s.endUs - s.beginUs)).toNat ≤ s.endUs.toNat
    omega
  · change (sums.raw + (s.realEndUs - s.realBeginUs)).toNat +
      (sums.before + (s.realBeginUs - s.beginUs)).toNat +
      (sums.after + (s.bodyEndUs - s.realEndUs)).toNat +
      (sums.trailing + (s.endUs - s.bodyEndUs)).toNat =
      (sums.covered + (s.endUs - s.beginUs)).toNat
    omega

theorem accountSpans_within (spans : List PresentSpan) {after : PostSums}
    (within : sums.Within beginUs endUs)
    (done : accountSpans callerThread beginUs endUs sums spans = (after, none)) :
    after.Within beginUs endUs := by
  induction spans generalizing sums with
  | nil =>
    cases done
    exact within
  | cons s rest ih =>
    unfold accountSpans at done
    split at done
    · cases done
    · rename_i fits
      exact ih (within.add fits) done

theorem PostSums.Within.partition (within : sums.Within beginUs endUs) (le : beginUs ≤ endUs)
    (count : Nat) :
    (Current.partsOf sums count (endUs - beginUs)).Partition (toMs (endUs - beginUs)) false := by
  obtain ⟨reached, inside, isSplit⟩ := within
  have whole := toNat_sub_add le
  have fits : sums.covered ≤ endUs - beginUs := by
    rw [UInt64.le_iff_toNat_le]
    omega
  have outside := toMs_add ((Nat.add_comm _ _).trans (toNat_sub_add fits))
  have edvr := toNat_add_of_le (a := sums.before) (b := sums.after) (c := endUs) (by omega)
  have parts : toMs sums.raw + toMs sums.before + toMs sums.after + toMs sums.trailing =
      toMs sums.covered := by
    unfold toMs
    rw [← isSplit]
    push_cast
    ring
  exact {
    rawPresent := toMs_nonneg _
    edvrBeforePresent := toMs_nonneg _
    edvrAfterPresent := toMs_nonneg _
    trailingCallback := toMs_nonneg _
    outsidePresent := toMs_nonneg _
    sum := by
      change toMs (endUs - beginUs - sums.covered) + toMs sums.raw + toMs sums.before +
        toMs sums.after + toMs sums.trailing = toMs (endUs - beginUs)
      linarith
    edvrPresent := (toMs_add edvr.symm).symm
    postResidual := by
      change toMs (endUs - beginUs) - toMs (endUs - beginUs - sums.covered) - toMs sums.raw -
        toMs sums.before - toMs sums.after - toMs sums.trailing = 0
      linarith
    single := fun isSingle => nomatch isSingle }

theorem single_partition (fits : spanFault callerThread beginUs endUs beginUs s = none)
    (interval : beginUs ≤ endUs) :
    toMs (s.beginUs - beginUs) + toMs (endUs - s.endUs) =
      toMs (endUs - beginUs - (PostSums.add { previousEnd := beginUs } s).covered) := by
  obtain ⟨ends, follows, ⟨-, starts, runs, closes⟩, trails⟩ := spanFault_none fits
  have spans := toNat_sub_add (UInt64.le_trans starts
    (UInt64.le_trans runs (UInt64.le_trans closes trails)))
  have covered : (PostSums.add { previousEnd := beginUs } s).covered = s.endUs - s.beginUs :=
    UInt64.zero_add _
  have before := toNat_sub_add follows
  have after := toNat_sub_add ends
  have whole := toNat_sub_add interval
  rw [covered]
  refine toMs_add ?_
  have fits : s.endUs - s.beginUs ≤ endUs - beginUs := by
    rw [UInt64.le_iff_toNat_le]
    omega
  have outside := toNat_sub_add fits
  omega

theorem take_one_spans (spans : Vector PresentSpan presentTraceCapacity) :
    spans.toList.take 1 = [spans[0]] := by
  obtain ⟨⟨list⟩, size⟩ := spans
  cases list with
  | nil => cases size
  | cons s rest => rfl

variable {c : Current}

theorem traceFault_none {trace : PresentTrace} (fits : traceFault c endUs trace = none) :
    c.submitReturn 1 ≤ endUs := by
  unfold traceFault at fits
  iterate 7
    split at fits
    · cases fits
  rename_i inOrder
  exact UInt64.not_lt.mp (not_or.mp inOrder).2

theorem accountPost_spec (c : Current) (trace : Option PresentTrace) (endUs : UInt64) :
    ∃ invalid sync post valid why single presentBegin presentEnd,
      c.accountPost trace endUs = { c with
        handoffInvalid := invalid, syncNonzeroPresent := sync, post := post, postValid := valid
        postUnavailable := why, singlePresent := single, presentBegin := presentBegin
        presentEnd := presentEnd } ∧
      (valid = true → c.submitReturn 1 ≤ endUs ∧
        post.Partition (toMs (endUs - c.submitReturn 1)) single) ∧
      (valid = false → post = c.post) := by
  unfold Current.accountPost
  dsimp only
  split
  · exact ⟨_, _, _, _, _, _, _, _, rfl,
      fun valid => absurd valid Bool.false_ne_true, fun _ => rfl⟩
  rename_i trace
  split
  · exact ⟨_, _, _, _, _, _, _, _, rfl,
      fun valid => absurd valid Bool.false_ne_true, fun _ => rfl⟩
  rename_i noFault
  have interval : c.submitReturn 1 ≤ endUs := traceFault_none (c := _) noFault
  generalize isSpans : trace.spans.toList.take trace.count.toNat = spans
  cases done : accountSpans c.callerThread (c.submitReturn 1) endUs
      { previousEnd := c.submitReturn 1 } spans with
  | mk sums fault =>
  cases fault with
  | some why =>
    exact ⟨_, _, _, _, _, _, _, _, rfl,
      fun valid => absurd valid Bool.false_ne_true, fun _ => rfl⟩
  | none =>
    dsimp only
    split
    · exact ⟨_, _, _, _, _, _, _, _, rfl,
      fun valid => absurd valid Bool.false_ne_true, fun _ => rfl⟩
    have within : sums.Within (c.submitReturn 1) endUs :=
      accountSpans_within spans ⟨Nat.le_refl _, UInt64.le_iff_toNat_le.mp interval, rfl⟩ done
    have parts := within.partition interval trace.count.toNat
    split
    · rename_i isOne
      refine ⟨_, _, _, _, _, _, _, _, rfl, fun _ => ⟨interval, ?_⟩, fun valid => nomatch valid⟩
      have only : spans = [trace.spans[0]] := by
        rw [← isSpans, isOne]
        exact take_one_spans trace.spans
      rw [only] at done
      unfold accountSpans at done
      split at done
      · cases done
      rename_i fits
      cases done
      exact { parts with
        single := fun _ => ⟨toMs_nonneg _, toMs_nonneg _, single_partition fits interval⟩ }
    · rename_i notOne
      refine ⟨_, _, _, _, _, _, _, _, rfl, fun _ => ⟨interval, ?_⟩, fun valid => nomatch valid⟩
      exact { parts with
        single := fun isSingle => absurd (beq_iff_eq.mp isSingle) notOne }

/-- The marks of the cycle in progress are a chain. Only the wait after the second eye may
have begun before that eye returned. -/
structure Current.Chained (c : Current) (wait : Wait) : Prop where
  idle : c.active = false → c.eyes = 0 ∧ c.submitOpen = false
  few : c.eyes ≤ 2
  opened : c.submitOpen = true → c.eyes < 2
  beforeFirst : c.eyes = 0 → c.submitOpen = true →
    c.waitReturn.toNat + c.beforeFirst.toNat = c.submitBegin.toNat
  first : 1 ≤ c.eyes → c.waitReturn.toNat + c.beforeFirst.toNat + (c.submitRound 0).toNat =
    (c.submitReturn 0).toNat
  between : c.eyes = 1 → c.submitOpen = true →
    (c.submitReturn 0).toNat + c.between.toNat = c.submitBegin.toNat
  second : c.eyes = 2 → (c.submitReturn 0).toNat + c.between.toNat + (c.submitRound 1).toNat =
    (c.submitReturn 1).toNat
  after : c.afterSecondReady = true → c.eyes = 2 ∧ wait.isOpen = true ∧
    c.afterSecond = wait.beginUs - c.submitReturn 1
  post : c.postValid = true → c.afterSecondReady = true ∧ c.submitReturn 1 ≤ wait.beginUs ∧
    c.post.Partition (toMs (wait.beginUs - c.submitReturn 1)) c.singlePresent

theorem Current.Chained.unsubmitted (c : Current) (wait : Wait) (eyes : c.eyes = 0)
    (closed : c.submitOpen = false) (notReady : c.afterSecondReady = false)
    (notValid : c.postValid = false) : c.Chained wait where
  idle := fun _ => ⟨eyes, closed⟩
  few := by omega
  opened := fun isOpen => absurd (closed.symm.trans isOpen) Bool.false_ne_true
  beforeFirst := fun _ isOpen => absurd (closed.symm.trans isOpen) Bool.false_ne_true
  first := fun some => by omega
  between := fun _ isOpen => absurd (closed.symm.trans isOpen) Bool.false_ne_true
  second := fun both => by omega
  after := fun ready => absurd (notReady.symm.trans ready) Bool.false_ne_true
  post := fun valid => absurd (notValid.symm.trans valid) Bool.false_ne_true

theorem Current.Chained.empty (wait : Wait) : ({} : Current).Chained wait :=
  .unsubmitted {} wait rfl rfl rfl rfl

theorem Current.Chained.waitMarks {wait next : Wait} (chained : c.Chained wait)
    (isOpen : next.isOpen = wait.isOpen) (beginUs : next.beginUs = wait.beginUs) : c.Chained next :=
  { chained with
    after := isOpen ▸ beginUs ▸ chained.after
    post := beginUs ▸ chained.post }

theorem Current.Chained.sample {wait : Wait} (chained : c.Chained wait) {nextWaitReturn : UInt64}
    (waited : wait.beginUs ≤ nextWaitReturn) (returned : c.waitReturn ≤ nextWaitReturn)
    (ready : c.afterSecondReady = true) (waitThread : UInt32) (frameEndOwnerMs : ℚ)
    (small : ¬|(sampleOf c wait nextWaitReturn waitThread frameEndOwnerMs).residual| > 1 / 100) :
    (sampleOf c wait nextWaitReturn waitThread frameEndOwnerMs).Partition := by
  obtain ⟨both, -, afterSecond⟩ := chained.after ready
  have first := chained.first (by omega)
  have second := chained.second both
  have residual : (sampleOf c wait nextWaitReturn waitThread frameEndOwnerMs).residual =
      ((wait.beginUs.toNat : ℚ) - (c.submitReturn 1).toNat - c.afterSecond.toNat) / 1000 := by
    have cycle : (c.waitReturn.toNat : ℚ) + (nextWaitReturn - c.waitReturn).toNat =
        nextWaitReturn.toNat := by exact_mod_cast toNat_sub_add returned
    have nextWait : (wait.beginUs.toNat : ℚ) + (nextWaitReturn - wait.beginUs).toNat =
        nextWaitReturn.toNat := by exact_mod_cast toNat_sub_add waited
    have first : (c.waitReturn.toNat : ℚ) + c.beforeFirst.toNat + (c.submitRound 0).toNat =
        (c.submitReturn 0).toNat := by exact_mod_cast first
    have second : ((c.submitReturn 0).toNat : ℚ) + c.between.toNat + (c.submitRound 1).toNat =
        (c.submitReturn 1).toNat := by exact_mod_cast second
    change toMs _ - (toMs _ + toMs _ + toMs _ + toMs _ + toMs _ + toMs _) = _
    unfold toMs
    linarith
  -- A clock that went back between the second eye and the wait leaves a whole turn.
  have inOrder : c.submitReturn 1 ≤ wait.beginUs := by
    by_contra reversed
    rw [UInt64.le_iff_toNat_le] at reversed
    have turned : (c.submitReturn 1).toNat + c.afterSecond.toNat = wait.beginUs.toNat + 2 ^ 64 := by
      have := (c.submitReturn 1).toNat_lt
      rw [afterSecond, UInt64.toNat_sub]
      omega
    have whole : ((c.submitReturn 1).toNat : ℚ) + c.afterSecond.toNat =
        wait.beginUs.toNat + 2 ^ 64 := by exact_mod_cast turned
    refine small ?_
    rw [residual, gt_iff_lt, lt_abs]
    right
    linarith
  have none : (sampleOf c wait nextWaitReturn waitThread frameEndOwnerMs).residual = 0 := by
    have spent : ((c.submitReturn 1).toNat : ℚ) + c.afterSecond.toNat = wait.beginUs.toNat := by
      rw [afterSecond]
      exact_mod_cast toNat_sub_add inOrder
    linarith
  exact {
    beforeFirst := toMs_nonneg _
    firstSubmit := toMs_nonneg _
    betweenEyes := toMs_nonneg _
    secondSubmit := toMs_nonneg _
    afterSecond := toMs_nonneg _
    nextWait := toMs_nonneg _
    sum := (sub_eq_zero.mp none).symm
    residual := none
    post := fun valid => by
      have parts := (chained.post valid).2.2
      rw [← afterSecond] at parts
      exact parts }

def Report.Partition (r : Report) : Prop :=
  r.beforeFirst.mean + r.firstSubmit.mean + r.betweenEyes.mean + r.secondSubmit.mean +
    r.afterSecond.mean + r.nextWait.mean = r.cycle.mean

theorem dist_mean_map {α : Type} (field : α → ℚ) (samples : List α) :
    (dist (samples.map field)).mean = (samples.map field).sum / samples.length := by
  unfold dist
  split
  · rename_i none
    rw [none, List.sum_nil, zero_div]
  · rw [List.length_map]

end FrameCycle

namespace FrameCycleStats

theorem reportOf_partition {t : FrameCycleStats} (samples : ∀ s ∈ t.samples, s.Partition)
    (last nowMs : UInt64) : (t.reportOf last nowMs).Partition := by
  have sums : (t.samples.map (·.beforeFirst)).sum + (t.samples.map (·.firstSubmit)).sum +
      (t.samples.map (·.betweenEyes)).sum + (t.samples.map (·.secondSubmit)).sum +
      (t.samples.map (·.afterSecond)).sum + (t.samples.map (·.nextWait)).sum =
      (t.samples.map (·.cycle)).sum := by
    rw [← List.sum_map_add, ← List.sum_map_add, ← List.sum_map_add, ← List.sum_map_add,
      ← List.sum_map_add]
    exact congrArg List.sum (List.map_congr_left fun s mem => (samples s mem).sum)
  change (dist _).mean + (dist _).mean + (dist _).mean + (dist _).mean + (dist _).mean +
    (dist _).mean = (dist _).mean
  simp only [dist_mean_map]
  rw [← sums]
  ring

/-- The cycle in progress is a chain, and all that is kept or reported makes up its cycles. -/
structure Sound (t : FrameCycleStats) : Prop where
  chained : t.current.Chained t.wait
  samples : ∀ s ∈ t.samples, s.Partition
  report : ∀ r, t.report = some r → r.Partition

namespace Sound

variable {t : FrameCycleStats}

theorem init : ({} : FrameCycleStats).Sound where
  chained := .empty _
  samples := fun _ mem => nomatch mem
  report := fun _ isReport => nomatch isReport

theorem note (sound : t.Sound) (m : Missing) : (t.note m).Sound := { sound with }

theorem failCurrent (sound : t.Sound) : t.failCurrent.Sound := { sound with chained := .empty _ }

theorem bad (sound : t.Sound) (m : Missing) : (t.bad m).Sound := (sound.note m).failCurrent

theorem observeWaitThread (sound : t.Sound) (thread : UInt32) :
    (t.observeWaitThread thread).Sound := by
  unfold FrameCycleStats.observeWaitThread
  split
  · exact { sound with }
  split
  · exact { sound with }
  · exact sound

theorem observeSubmitThread (sound : t.Sound) (thread : UInt32) :
    (t.observeSubmitThread thread).Sound := by
  unfold FrameCycleStats.observeSubmitThread
  split
  · exact { sound with }
  split
  · exact { sound with }
  · exact sound

theorem makeReport (sound : t.Sound) (last nowMs : UInt64) : (t.makeReport last nowMs).Sound where
  chained := sound.chained
  samples := fun _ mem => nomatch mem
  report := by
    rintro _ ⟨⟩
    exact reportOf_partition sound.samples last nowMs

theorem advanceWindow (sound : t.Sound) (nowMs : UInt64) (shape : Shape) (sequence : UInt64) :
    (t.advanceWindow nowMs shape sequence).Sound := by
  have started : ∀ {t : FrameCycleStats}, t.Sound → (t.startWindow nowMs shape sequence).Sound :=
    fun sound => { sound with }
  unfold FrameCycleStats.advanceWindow
  split
  · exact { started sound with }
  split
  · exact { started ((sound.note .badClock).makeReport _ _) with }
  split
  · exact { started (sound.makeReport _ _) with }
  · exact { sound with }

theorem admitSample (sound : t.Sound) {s : Sample} (partition : s.Partition) (shape : Shape)
    (nowMs : UInt64) : (t.admitSample s shape nowMs).1.Sound := by
  have begun : (t.nameWindow s shape).Sound := by
    unfold nameWindow
    split
    · exact { sound with }
    · exact sound
  unfold FrameCycleStats.admitSample
  dsimp only
  split
  · exact (begun.note .overflow).makeReport _ _
  · refine { begun with samples := fun kept mem => ?_ }
    rcases List.mem_append.mp mem with mem | mem
    · exact begun.samples kept mem
    · cases List.mem_singleton.mp mem
      exact partition

theorem finishCurrent (sound : t.Sound) {nextWaitReturn : UInt64}
    (waited : t.wait.beginUs ≤ nextWaitReturn) (nowMs : UInt64) (waitThread : UInt32) :
    (t.finishCurrent nextWaitReturn nowMs waitThread).1.Sound ∧
      ∀ s ∈ (t.finishCurrent nextWaitReturn nowMs waitThread).2, s.Partition := by
  unfold FrameCycleStats.finishCurrent
  split
  · exact ⟨sound.bad _, fun _ mem => nomatch mem⟩
  split
  · exact ⟨sound.bad _, fun _ mem => nomatch mem⟩
  rename_i inOrder
  obtain ⟨returned, ready⟩ := not_or.mp inOrder
  dsimp only
  split
  · refine ⟨bad ?_ _, fun _ mem => nomatch mem⟩
    exact { sound with }
  rename_i small
  have partition := sound.chained.sample waited (UInt64.not_lt.mp returned) (not_not.mp ready)
    waitThread t.pendingFrameEndOwnerMs (not_or.mp small).1
  split
  · refine ⟨{ admitSample ?_ partition _ nowMs with }, fun s mem => ?_⟩
    · exact { sound with }
    · cases List.mem_singleton.mp mem
      exact partition
  · refine ⟨admitSample ?_ partition _ nowMs, fun _ mem => nomatch mem⟩
    exact { sound with }

theorem waitCallerBegin (sound : t.Sound) (tick : UInt64) (thread : UInt32)
    (trace : Option PresentTrace) : (t.waitCallerBegin tick thread trace).Sound := by
  unfold FrameCycleStats.waitCallerBegin
  dsimp only
  have observed : ({ t with enabled := true }.observeWaitThread thread).Sound := by
    refine observeWaitThread ?_ thread
    exact { sound with }
  generalize FrameCycleStats.observeWaitThread _ thread = u at observed
  split
  · exact observed.note _
  rename_i free
  -- Nothing was ready for this wait before it began.
  have notReady : u.current.afterSecondReady = false := by
    by_contra ready
    exact (not_or.mp free).2 (observed.chained.after (Bool.not_eq_false _ ▸ ready)).2.1
  have notValid : u.current.postValid = false := by
    by_contra valid
    have ready := (observed.chained.post (Bool.not_eq_false _ ▸ valid)).1
    exact absurd (notReady.symm.trans ready) Bool.false_ne_true
  split
  · rename_i both
    obtain ⟨invalid, sync, post, valid, why, single, presentBegin, presentEnd, isAccount, parts, -⟩ :=
      accountPost_spec { u.current with
        afterSecond := tick - u.current.submitReturn 1, afterSecondReady := true } trace tick
    rw [isAccount]
    refine { observed with chained := { observed.chained with after := ?_, post := ?_ } }
    · exact fun _ => ⟨both.2, rfl, rfl⟩
    · exact fun isValid => ⟨rfl, parts isValid⟩
  · refine { observed with chained := { observed.chained with after := ?_, post := ?_ } }
    · exact fun ready => absurd (notReady.symm.trans ready) Bool.false_ne_true
    · exact fun valid => absurd (notValid.symm.trans valid) Bool.false_ne_true

theorem waitOwnerBegin (sound : t.Sound) (token tick : UInt64) :
    (t.waitOwnerBegin token tick).Sound := by
  unfold FrameCycleStats.waitOwnerBegin
  split
  · exact { sound with chained := sound.chained.waitMarks rfl rfl }
  · exact sound.note _

theorem waitOwnerEnd (sound : t.Sound) (token tick : UInt64) :
    (t.waitOwnerEnd token tick).Sound := by
  unfold FrameCycleStats.waitOwnerEnd
  split
  · exact { sound with chained := sound.chained.waitMarks rfl rfl }
  · exact sound.note _

theorem frameEndOwnerBegin (sound : t.Sound) (tick : UInt64) :
    (t.frameEndOwnerBegin tick).Sound := by
  unfold FrameCycleStats.frameEndOwnerBegin
  split
  · exact { sound with }
  · exact sound

theorem frameEndOwnerEnd (sound : t.Sound) (tick : UInt64) : (t.frameEndOwnerEnd tick).Sound := by
  unfold FrameCycleStats.frameEndOwnerEnd
  split
  · exact sound
  · exact { sound with }

theorem closeCycle (sound : t.Sound) {tick : UInt64} (waited : t.wait.beginUs ≤ tick)
    (nowMs : UInt64) (thread : UInt32) (shape : Shape) :
    (t.closeCycle tick nowMs thread shape).1.Sound ∧
      ∀ s ∈ (t.closeCycle tick nowMs thread shape).2, s.Partition := by
  unfold FrameCycleStats.closeCycle
  split
  · refine ⟨failCurrent ?_, fun _ mem => nomatch mem⟩
    split
    · exact (sound.note _).makeReport _ _
    · exact sound.note _
  split
  · exact sound.finishCurrent waited nowMs thread
  · exact ⟨sound, fun _ mem => nomatch mem⟩

theorem openCycle (sound : t.Sound) (sequence tick nowMs : UInt64) (thread : UInt32)
    (shape : Shape) : (t.openCycle sequence tick nowMs thread shape).Sound :=
  { sound with chained := .unsubmitted _ _ rfl rfl rfl rfl }

theorem dropFailed (sound : t.Sound) (m : Missing) (token : UInt64) :
    ((t.bad m).dropWait token).Sound := by
  have failed := sound.bad m
  unfold dropWait
  split
  · exact { failed with chained := .empty _ }
  · exact failed

theorem waitCallerEnd (sound : t.Sound) (token sequence tick nowMs : UInt64) (thread : UInt32)
    (shape : Shape) (ok : Bool) :
    (t.waitCallerEnd token sequence tick nowMs thread shape ok).1.Sound ∧
      ∀ s ∈ (t.waitCallerEnd token sequence tick nowMs thread shape ok).2, s.Partition := by
  unfold FrameCycleStats.waitCallerEnd
  have cleared : t.forgetCompleted.Sound := { sound with }
  dsimp only
  split
  · exact ⟨(cleared.advanceWindow nowMs shape sequence).dropFailed _ token,
      fun _ mem => nomatch mem⟩
  · rename_i fits
    simp only [not_or, not_not] at fits
    obtain ⟨-, -, -, -, ⟨-, begun, ran, ended⟩, -⟩ := fits
    obtain ⟨closed, admitted⟩ := cleared.closeCycle
      (UInt64.le_trans begun (UInt64.le_trans ran ended)) nowMs thread shape
    exact ⟨(closed.advanceWindow nowMs shape sequence).openCycle sequence tick nowMs thread shape,
      admitted⟩

theorem submitCallerBegin (sound : t.Sound) (eye : Nat) (tick : UInt64) (thread : UInt32) :
    (t.submitCallerBegin eye tick thread).Sound := by
  unfold FrameCycleStats.submitCallerBegin
  dsimp only
  have observed := sound.observeSubmitThread thread
  generalize t.observeSubmitThread thread = u at observed
  have chained := observed.chained
  split
  · exact observed.note _
  rename_i free
  simp only [not_or, not_not, ge_iff_le, not_le, gt_iff_lt, not_lt] at free
  obtain ⟨active, -, closed, few⟩ := free
  split
  · exact observed.bad _
  split
  · exact observed.bad _
  rename_i inOrder
  obtain ⟨-, afterWait, afterEye⟩ := (not_or.mp inOrder).imp_right not_or.mp
  have notReady : u.current.afterSecondReady = false := by
    by_contra ready
    have := (chained.after (Bool.not_eq_false _ ▸ ready)).1
    omega
  have notValid : u.current.postValid = false := by
    by_contra valid
    have ready := (chained.post (Bool.not_eq_false _ ▸ valid)).1
    exact absurd (notReady.symm.trans ready) Bool.false_ne_true
  refine { observed with chained := ?_ }
  split
  · rename_i none
    exact {
      chained with
      idle := fun inactive => absurd (inactive.symm.trans active) Bool.false_ne_true
      opened := fun _ => few
      beforeFirst := fun _ _ => toNat_sub_add (UInt64.not_lt.mp afterWait)
      first := fun some => by change 1 ≤ u.current.eyes at some; omega
      between := fun one _ => by change u.current.eyes = 1 at one; omega
      second := fun both => by change u.current.eyes = 2 at both; omega
      after := fun ready => absurd (notReady.symm.trans ready) Bool.false_ne_true
      post := fun valid => absurd (notValid.symm.trans valid) Bool.false_ne_true }
  · rename_i some
    have returned : u.current.submitReturn 0 ≤ tick :=
      UInt64.not_lt.mp fun early => afterEye ⟨some, early⟩
    exact {
      chained with
      idle := fun inactive => absurd (inactive.symm.trans active) Bool.false_ne_true
      opened := fun _ => few
      beforeFirst := fun none _ => absurd none some
      between := fun _ _ => toNat_sub_add returned
      second := fun both => by change u.current.eyes = 2 at both; omega
      after := fun ready => absurd (notReady.symm.trans ready) Bool.false_ne_true
      post := fun valid => absurd (notValid.symm.trans valid) Bool.false_ne_true }

theorem submitOwnerBegin (sound : t.Sound) (token tick : UInt64) :
    (t.submitOwnerBegin token tick).Sound := by
  unfold FrameCycleStats.submitOwnerBegin
  split
  · exact { sound with chained := { sound.chained with } }
  · exact sound.note _

theorem submitOwnerEnd (sound : t.Sound) (token tick : UInt64) :
    (t.submitOwnerEnd token tick).Sound := by
  unfold FrameCycleStats.submitOwnerEnd
  split
  · exact { sound with chained := { sound.chained with } }
  · exact sound.note _

theorem submitCallerEnd (sound : t.Sound) (token : UInt64) (eye : Nat) (sequence tick : UInt64)
    (thread : UInt32) (renderParkMs : Option ℚ) (ok : Bool) :
    (t.submitCallerEnd token eye sequence tick thread renderParkMs ok).Sound := by
  unfold FrameCycleStats.submitCallerEnd
  dsimp only
  split
  · exact sound.bad _
  split
  · exact sound.bad _
  rename_i fits
  simp only [not_or, not_not] at fits
  obtain ⟨-, -, -, isOpen, -, -, ⟨-, begun, ran, ended⟩, -⟩ := fits
  split
  · exact sound.bad _
  have chained := sound.chained
  have round := toNat_sub_add (UInt64.le_trans begun (UInt64.le_trans ran ended))
  have few := chained.opened isOpen
  have notReady : t.current.afterSecondReady = false := by
    by_contra ready
    have := (chained.after (Bool.not_eq_false _ ▸ ready)).1
    omega
  have notValid : t.current.postValid = false := by
    by_contra valid
    have ready := (chained.post (Bool.not_eq_false _ ▸ valid)).1
    exact absurd (notReady.symm.trans ready) Bool.false_ne_true
  have shut : ∀ {P : Prop}, false = true → P := fun isOpen => absurd isOpen Bool.false_ne_true
  refine { sound with chained := {
    idle := fun inactive => absurd ((chained.idle inactive).2.symm.trans isOpen) Bool.false_ne_true
    few := few
    opened := shut
    beforeFirst := fun none _ => absurd none (Nat.succ_ne_zero _)
    first := fun _ => ?_
    between := fun _ => shut
    second := fun both => ?_
    after := fun ready => absurd (notReady.symm.trans ready) Bool.false_ne_true
    post := fun valid => absurd (notValid.symm.trans valid) Bool.false_ne_true } }
  · dsimp only
    rcases Nat.eq_zero_or_pos t.current.eyes with none | some
    · rw [none, Function.update_self, Function.update_self, chained.beforeFirst none isOpen]
      exact round
    · rw [Function.update_of_ne (by omega), Function.update_of_ne (by omega)]
      exact chained.first some
  · have one : t.current.eyes = 1 := Nat.succ.inj both
    dsimp only
    rw [one, Function.update_self, Function.update_self, Function.update_of_ne (by omega),
      chained.between one isOpen]
    exact round

theorem noteHandoff (sound : t.Sound) (beginUs endUs sequence : UInt64) (thread : UInt32)
    (ok : Bool) : (t.noteHandoff beginUs endUs sequence thread ok).Sound := by
  unfold FrameCycleStats.noteHandoff
  dsimp only
  split
  · split
    · exact { sound with chained := { sound.chained with } }
    · exact { sound with }
  split
  · exact { sound with }
  split
  · exact { sound with chained := { sound.chained with } }
  split
  · exact { sound with chained := { sound.chained with } }
  · exact { sound with chained := { sound.chained with } }

theorem call (sound : t.Sound) (call : CycleCall) :
    (t.call call).1.Sound ∧ ∀ s ∈ (t.call call).2, s.Partition := by
  have silent : ∀ {u : FrameCycleStats}, u.Sound → u.Sound ∧ ∀ s ∈ ([] : List Sample), s.Partition :=
    fun sound => ⟨sound, fun _ mem => nomatch mem⟩
  cases call with
  | enabled => exact silent { sound with }
  | reset why => exact silent { sound.bad why with chained := .empty _ }
  | waitCallerBegin tick thread trace => exact silent (sound.waitCallerBegin tick thread trace)
  | waitOwnerBegin token tick => exact silent (sound.waitOwnerBegin token tick)
  | waitOwnerEnd token tick => exact silent (sound.waitOwnerEnd token tick)
  | frameEndOwnerBegin tick => exact silent (sound.frameEndOwnerBegin tick)
  | frameEndOwnerEnd tick => exact silent (sound.frameEndOwnerEnd tick)
  | waitCallerEnd token sequence tick nowMs thread shape ok =>
    exact sound.waitCallerEnd token sequence tick nowMs thread shape ok
  | submitCallerBegin eye tick thread => exact silent (sound.submitCallerBegin eye tick thread)
  | submitOwnerBegin token tick => exact silent (sound.submitOwnerBegin token tick)
  | submitOwnerEnd token tick => exact silent (sound.submitOwnerEnd token tick)
  | submitCallerEnd token eye sequence tick thread renderParkMs ok =>
    exact silent (sound.submitCallerEnd token eye sequence tick thread renderParkMs ok)
  | noteDirectOwner => exact silent (sound.bad _)
  | noteHandoff beginUs endUs sequence thread ok =>
    exact silent (sound.noteHandoff beginUs endUs sequence thread ok)
  | takeReport => exact silent { sound with report := fun _ isReport => nomatch isReport }
  | takeCompleted => exact silent { sound with }

end Sound

end FrameCycleStats

theorem cycleRun_sound (calls : List CycleCall) :
    (cycleRun calls).1.Sound ∧ ∀ s ∈ (cycleRun calls).2, s.Partition := by
  refine traced_induction FrameCycleStats.call {}
    (P := fun t admitted => t.Sound ∧ ∀ s ∈ admitted, s.Partition) ?_ ?_ calls
  · exact ⟨.init, fun _ mem => nomatch mem⟩
  · rintro t admitted call ⟨sound, partition⟩
    obtain ⟨next, more⟩ := sound.call call
    refine ⟨next, fun s mem => ?_⟩
    exact (List.mem_append.mp mem).elim (partition s) (more s)

namespace FrameCycleStats

/-- The work that was measured, whether it is of the cycle just closed, and whose it is. -/
def callerWork (t : FrameCycleStats) : ℚ × Bool × UInt64 :=
  (t.callerWorkMs, t.callerWorkMeasured, t.callerWorkFor)

theorem callerWork_advanceWindow (t : FrameCycleStats) (nowMs sequence : UInt64) (shape : Shape) :
    (t.advanceWindow nowMs shape sequence).callerWork = t.callerWork := by
  unfold advanceWindow
  dsimp only
  split_ifs <;> rfl

theorem callerWork_admitSample (t : FrameCycleStats) (s : Sample) (shape : Shape) (nowMs : UInt64) :
    (t.admitSample s shape nowMs).1.callerWork = t.callerWork := by
  unfold admitSample nameWindow
  dsimp only
  split_ifs <;> rfl

def phases (c : Current) : ℚ :=
  toMs c.beforeFirst + toMs (c.submitRound 0) + toMs c.between + toMs (c.submitRound 1) +
    toMs c.afterSecond

theorem Sound.callerWork_closeCycle {t : FrameCycleStats} (sound : t.Sound) {tick : UInt64}
    (waited : t.wait.beginUs ≤ tick) (nowMs : UInt64) (thread : UInt32) (shape : Shape) :
    (t.closeCycle tick nowMs thread shape).1.callerWork = t.callerWork ∨
      t.current.eyes = 2 ∧ (t.closeCycle tick nowMs thread shape).1.callerWork =
        (phases t.current, true, t.callerWorkFor) := by
  unfold FrameCycleStats.closeCycle FrameCycleStats.finishCurrent
  dsimp only
  split_ifs with _ _ _ both order small
  all_goals try exact .inl rfl
  all_goals
    obtain ⟨returned, ready⟩ := not_or.mp order
    have partition := sound.chained.sample waited (UInt64.not_lt.mp returned) (not_not.mp ready)
      thread t.pendingFrameEndOwnerMs (not_or.mp small).1
    have work : phases t.current = _ := eq_sub_of_add_eq partition.sum
    have measured : 0 ≤ phases t.current := by grind [phases, toMs_nonneg]
    refine .inr ⟨not_not.mp both, (callerWork_admitSample _ _ _ _).trans ?_⟩
    simp only [callerWork, ← work, measured, decide_true]

/-- What is told of the caller's work after a wait that returns is nothing, or the work of the
cycle that this closes. Any other call leaves what is told, or withdraws it. -/
theorem caller_work_is_of_last_cycle (calls : List CycleCall) (last : CycleCall) :
    let t := (cycleRun calls).1
    let told := (t.call last).1.callerWorkForCurrent
    told = none ∨
      (∃ token sequence tick nowMs thread shape,
        last = .waitCallerEnd token sequence tick nowMs thread shape true ∧ t.current.eyes = 2 ∧
          told = some (phases t.current)) ∨
      (∀ token sequence tick nowMs thread shape ok,
        last ≠ .waitCallerEnd token sequence tick nowMs thread shape ok) ∧
        told = t.callerWorkForCurrent := by
  have sound := (cycleRun_sound calls).1
  dsimp only
  generalize (cycleRun calls).1 = t at sound ⊢
  cases last
  case waitCallerEnd token sequence tick nowMs thread shape ok =>
    dsimp only [call, waitCallerEnd]
    split
    · generalize advanceWindow _ _ _ _ = u
      unfold dropWait
      split_ifs <;> exact .inl rfl
    rename_i fits
    simp only [not_or, not_not] at fits
    obtain ⟨rfl, -, -, -, ⟨-, begun, ran, ended⟩, -⟩ := fits
    have cleared : t.forgetCompleted.Sound := { sound with }
    have closed := cleared.callerWork_closeCycle
      (UInt64.le_trans begun (UInt64.le_trans ran ended)) nowMs thread shape
    rw [← callerWork_advanceWindow _ nowMs sequence shape] at closed
    dsimp only
    generalize advanceWindow _ _ _ _ = u at closed ⊢
    obtain same | ⟨both, work⟩ := closed
    · obtain ⟨-, unmeasured, none_⟩ : _ ∧ u.callerWorkMeasured = false ∧ u.callerWorkFor = 0 := by
        simpa [callerWork, forgetCompleted] using same
      left
      simp [callerWorkForCurrent, openCycle, openedCycle, unmeasured, none_, eq_comm, em]
    · exact (ite_eq_or_eq _ none (some u.callerWorkMs)).imp_right fun told =>
        .inl ⟨_, _, _, _, _, _, rfl, both, told.trans (congrArg (some ·.1) work)⟩
  case waitCallerBegin tick thread trace =>
    dsimp only [call, waitCallerBegin, observeWaitThread]
    obtain ⟨_, _, _, _, _, _, _, _, isAccount, -⟩ := accountPost_spec
      { t.current with
        afterSecond := tick - t.current.submitReturn 1, afterSecondReady := true } trace tick
    split_ifs
    all_goals refine .inr (.inr ⟨by rintro _ _ _ _ _ _ _ ⟨⟩, ?_⟩)
    all_goals first | rfl | rw [isAccount]; rfl
  all_goals
    refine Or.imp_right (fun told => .inr ⟨by rintro _ _ _ _ _ _ _ ⟨⟩, told⟩) ?_
    dsimp only [call, waitOwnerBegin, waitOwnerEnd, frameEndOwnerBegin, frameEndOwnerEnd,
      observeSubmitThread, submitCallerBegin, submitOwnerBegin, submitOwnerEnd, submitCallerEnd,
      noteHandoff]
    try split_ifs
    all_goals first | exact .inr rfl | exact .inl rfl

end FrameCycleStats

end EdvrPatch.OpenXr
