import EdvrPatch.Benchmark.WindowInvariant

/-! The frames of the sample always fit. The strays have to fit in the smaller table, and
at the rate that the window is sized for they need not. -/
namespace EdvrPatch.Benchmark

open Lib NativeBenchmarkCollector

section

variable {feed : List BenchmarkTick} {scope : Nat}

theorem exists_warmup (feed : List BenchmarkTick) :
    ∃ warm, feed = warm ++ sampledFrom feed ∧
      (sampledFrom feed ≠ [] → ∀ t ∈ warm, t.nowMs < sampleStart feed) := by
  cases feed with
  | nil => exact ⟨[], rfl, nofun⟩
  | cons first rest =>
    refine ⟨first :: rest.takeWhile (fun t => t.nowMs < first.nowMs + kWarmupMs), ?_, ?_⟩
    · rw [sampledFrom, List.cons_append, List.takeWhile_append_dropWhile]
    · intro some t mem
      have started : first.nowMs + kWarmupMs ≤ sampleStart (first :: rest) := by
        unfold sampleStart
        cases isHead : sampledFrom (first :: rest) with
        | nil => exact absurd isHead some
        | cons head tail =>
          have := List.head?_dropWhile_not (fun t => decide (t.nowMs < first.nowMs + kWarmupMs)) rest
          rw [show rest.dropWhile _ = head :: tail from isHead] at this
          simpa using this
      rcases List.mem_cons.mp mem with rfl | early
      · have : 0 < kWarmupMs := by decide
        omega
      · have := List.mem_takeWhile_imp early
        simp only [decide_eq_true_eq] at this
        omega

theorem SteadyFeed.cpu_unique (steady : SteadyFeed feed scope) {t u : BenchmarkTick} (tMem : t ∈ feed)
    (uMem : u ∈ feed) (nonzero : t.sample.cpuSequence ≠ 0)
    (same : t.sample.cpuSequence = u.sample.cpuSequence) : t = u := by
  have all : ∀ ⦃x⦄, x ∈ feed → ∀ ⦃y⦄, y ∈ feed → x.sample.cpuSequence ≠ 0 →
      x.sample.cpuSequence = y.sample.cpuSequence → x = y := by
    apply List.Pairwise.forall_of_forall_of_flip
    · exact fun _ _ _ _ => rfl
    · exact steady.cpuOnce.imp fun apart isNonzero isEqual => absurd isEqual (apart isNonzero)
    · refine steady.cpuOnce.imp fun apart isNonzero isEqual => absurd isEqual.symm (apart ?_)
      rw [← isEqual]
      exact isNonzero
  exact all tMem uMem nonzero same

theorem SteadyFeed.frames_le (steady : SteadyFeed feed scope) (t₀ n : Nat) :
    (feed.filter fun t => t.sample.cpuSequence ≠ 0 ∧ t₀ ≤ t.sample.cpuAtMs ∧
      t.sample.cpuAtMs < t₀ + 1000 * n).length ≤ 240 * n := by
  induction n with
  | zero =>
    rw [List.filter_eq_nil_iff.mpr]
    · exact Nat.le_refl 0
    · intro t _
      simp
  | succ n ih =>
    have next := steady.rate (t₀ + 1000 * n)
    rw [← List.countP_eq_length_filter] at ih next ⊢
    have split : feed.countP (fun t => t.sample.cpuSequence ≠ 0 ∧ t₀ ≤ t.sample.cpuAtMs ∧
        t.sample.cpuAtMs < t₀ + 1000 * (n + 1)) ≤
        feed.countP (fun t => t.sample.cpuSequence ≠ 0 ∧ t₀ ≤ t.sample.cpuAtMs ∧
          t.sample.cpuAtMs < t₀ + 1000 * n) +
        feed.countP (fun t => t.sample.cpuSequence ≠ 0 ∧ t₀ + 1000 * n ≤ t.sample.cpuAtMs ∧
          t.sample.cpuAtMs < t₀ + 1000 * n + 1000) := by
      clear ih next steady
      induction feed with
      | nil => exact Nat.le_refl 0
      | cons t rest ih =>
        simp only [List.countP_cons, decide_eq_true_eq]
        split <;> split <;> split <;> omega
    omega

variable {cs : List BenchmarkTick}

theorem SteadyFeed.sample_fits (steady : SteadyFeed feed scope) (sub : cs.Sublist feed) :
    (cs.filter fun t => InSample feed t).length < kCapacity := by
  have frames := steady.frames_le (sampleStart feed) 30
  calc
    _ ≤ (feed.filter fun t => InSample feed t).length := (sub.filter _).length_le
    _ ≤ 240 * 30 := frames
    _ < kCapacity := by decide

variable {warm w rest : List BenchmarkTick} {t u : BenchmarkTick}

theorem SteadyFeed.not_early (steady : SteadyFeed feed scope) (mem : t ∈ feed)
    (early : t.nowMs < sampleStart feed) : ¬InSample feed t := by
  rintro ⟨nonzero, after, _⟩
  have := steady.published t mem nonzero
  omega

theorem SteadyFeed.frame_before (steady : SteadyFeed feed scope) {before after : List BenchmarkTick}
    (split : feed = before ++ t :: after) (mem : u ∈ feed) (nonzero : u.sample.cpuSequence ≠ 0)
    (same : u.sample.cpuSequence = t.sample.gpuSequence) :
    u ∈ before ++ [t] ∧ t.nowMs ≤ u.sample.cpuAtMs + kDrainMs := by
  obtain ⟨v, isBefore, frame, inTime⟩ :=
    steady.later before t after split (by rw [← same]; exact nonzero)
  have inFeed : v ∈ feed := by
    rw [split]
    rcases List.mem_append.mp isBefore with left | last
    · exact List.mem_append_left _ left
    · rw [List.mem_singleton.mp last]
      exact List.mem_append_right _ List.mem_cons_self
  have : u = v := steady.cpu_unique mem inFeed nonzero (same.trans frame.symm)
  subst this
  exact ⟨isBefore, inTime⟩

theorem SteadyFeed.due (steady : SteadyFeed feed scope) (split : feed = warm ++ (w ++ t :: rest))
    (early : ∀ u ∈ warm, u.nowMs < sampleStart feed) : Due feed (w ++ [t]) w t := by
  have whole : feed = (warm ++ w) ++ t :: rest := by rw [split, List.append_assoc]
  have mem : t ∈ feed := by
    rw [whole]
    exact List.mem_append_right _ List.mem_cons_self
  have sub : (w ++ [t]).Sublist feed := by
    rw [split]
    refine List.Sublist.trans ?_ (List.sublist_append_right warm _)
    exact List.Sublist.append_left (by simp) w
  refine ⟨mem, fun u isTaken => sub.subset isTaken, steady.sample_fits sub, ?_, ?_⟩
  · intro nonzero u isBefore same
    have apart := steady.gpuOnce
    rw [whole, List.pairwise_append] at apart
    refine apart.2.2 u (List.mem_append_right _ isBefore) t List.mem_cons_self ?_ same
    rw [same]
    exact nonzero
  · intro u isFrame inside same
    obtain ⟨isBefore, inTime⟩ := steady.frame_before whole isFrame inside.1 same
    refine ⟨?_, ?_⟩
    · rw [List.append_assoc] at isBefore
      rcases List.mem_append.mp isBefore with isEarly | isLater
      · exact absurd inside (steady.not_early isFrame (early u isEarly))
      · exact isLater
    · have := steady.completed t mem (by rw [← same]; exact inside.1)
      have := inside.2.2
      unfold drainEnd
      omega

theorem SteadyFeed.cpu_new (steady : SteadyFeed feed scope) (split : feed = warm ++ (w ++ t :: rest))
    (inside : InSample feed t) (mem : u ∈ w) :
    u.sample.cpuSequence ≠ t.sample.cpuSequence ∧ u.sample.gpuSequence ≠ t.sample.cpuSequence := by
  have whole : feed = (warm ++ w) ++ t :: rest := by rw [split, List.append_assoc]
  have apart := steady.cpuOnce
  rw [whole, List.pairwise_append] at apart
  have new : ∀ v ∈ warm ++ w, v.sample.cpuSequence ≠ t.sample.cpuSequence := by
    intro v isBefore same
    refine apart.2.2 v isBefore t List.mem_cons_self ?_ same
    rw [same]
    exact inside.1
  refine ⟨new u (List.mem_append_right _ mem), fun same => ?_⟩
  obtain ⟨first, last, isSplit⟩ := List.append_of_mem mem
  have around : feed = (warm ++ first) ++ u :: (last ++ t :: rest) := by
    rw [split, isSplit]
    simp
  obtain ⟨v, isBefore, frame, _⟩ := steady.later _ u _ around (by rw [same]; exact inside.1)
  refine new v ?_ (frame.trans same)
  rw [isSplit]
  rcases List.mem_append.mp isBefore with left | right
  · rcases List.mem_append.mp left with isWarm | isFirst
    · exact List.mem_append_left _ isWarm
    · exact List.mem_append_right _ (List.mem_append_left _ isFirst)
  · rw [List.mem_singleton.mp right]
    exact List.mem_append_right _ (List.mem_append_right _ List.mem_cons_self)

def Overflowed (c : NativeBenchmarkCollector) : Prop :=
  c.phase = .complete ∧ c.abortReason = .overflow

variable {c : NativeBenchmarkCollector}

theorem observe_open (running : c.phase = .sampling ∨ c.phase = .drain)
    (isScope : c.scope = t.sample.scope) (named : c.scope ≠ 0) (clock : c.lastNowMs ≤ t.nowMs) :
    c.observe t.sample t.nowMs = takeIn { c with lastNowMs := t.nowMs } t.sample t.nowMs := by
  unfold observe
  have incomplete : c.phase ≠ .complete := by
    rcases running with isPhase | isPhase <;> rw [isPhase] <;> decide
  have warm : c.phase ≠ .warmup := by
    rcases running with isPhase | isPhase <;> rw [isPhase] <;> decide
  have same : (if c.scope ≠ t.sample.scope then start t.sample.scope t.nowMs else c) = c :=
    if_neg fun other => other isScope
  rw [if_neg incomplete, if_neg (by rw [← isScope]; exact named), if_neg (fun other => other.1 isScope)]
  simp only [same]
  rw [if_neg (Nat.not_lt.mpr clock), if_neg warm, if_pos running]

variable {now : Nat}

theorem NativeBenchmarkCollector.Good.moves {gs : List BenchmarkTick}
    (h : Good feed scope now cs gs c) (unclosed : ¬Closing feed t) :
    Good feed scope now cs gs
      (let c := if c.phase = .sampling ∧ elapsed t.nowMs c.sampleEndMs 0 then { c with phase := .drain }
        else c
      if c.phase = .drain ∧ t.sample.cpuSequence = 0 ∧ t.sample.gpuSequence = 0 ∧
          elapsed t.nowMs c.drainEndMs 0 then c.finish t.nowMs .completed
      else c) := by
  have moved : Good feed scope now cs gs (if c.phase = .sampling ∧ elapsed t.nowMs c.sampleEndMs 0 then
      { c with phase := .drain } else c) := by
    split
    · exact { h with running := .inr rfl }
    · exact h
  dsimp only
  rw [if_neg]
  · exact moved
  · rintro ⟨_, noCpu, noGpu, past⟩
    apply unclosed
    refine ⟨noCpu, noGpu, ?_⟩
    rw [moved.drain] at past
    simpa [elapsed] using past

theorem SteadyFeed.takes (steady : SteadyFeed feed scope)
    (split : feed = warm ++ (w ++ t :: rest)) (early : ∀ u ∈ warm, u.nowMs < sampleStart feed)
    (h : Good feed scope now w w c) (clock : now ≤ t.nowMs) (unclosed : ¬Closing feed t) :
    if (w.filter fun t => Stray feed t).length < kOrphanCapacity ∨ ¬Stray feed t then
      Good feed scope t.nowMs (w ++ [t]) (w ++ [t]) (c.observe t.sample t.nowMs)
    else Overflowed (c.observe t.sample t.nowMs) := by
  have due := steady.due split early
  have isScope : c.scope = t.sample.scope := by rw [h.scope, steady.scope t due.mem]
  rw [observe_open h.running isScope (by rw [h.scope]; exact steady.named) (by rw [h.now]; exact clock)]
  have ticked : Good feed scope t.nowMs w w { c with lastNowMs := t.nowMs } := { h with now := rfl }
  have sub : w.Sublist feed := by
    rw [split]
    exact (List.sublist_append_left w _).trans (List.sublist_append_right warm _)
  have taken := ticked.addCpu due.mem (steady.sample_fits sub)
    (fun inside u mem => (steady.cpu_new split inside mem).1)
    fun inside u mem => (steady.cpu_new split inside mem).2
  have both := taken.addGpu due
  unfold takeIn
  split
  · rename_i fits
    rw [if_pos fits] at both
    rw [if_neg (by rw [both.overflow]; decide)]
    exact both.moves unclosed
  · rename_i full
    rw [if_neg full] at both
    rw [if_pos both]
    exact ⟨rfl, rfl⟩

theorem Overflowed.observe (h : Overflowed c) (sample : NativeBenchmarkObservation) (nowMs : Nat) :
    c.observe sample nowMs = c := by
  unfold NativeBenchmarkCollector.observe
  rw [if_pos h.1]

def warming (scope startMs nowMs : Nat) : NativeBenchmarkCollector :=
  { start scope startMs with lastNowMs := nowMs }

def opened (scope startMs sampleMs : Nat) : NativeBenchmarkCollector :=
  (start scope startMs).startSampling sampleMs

variable {startMs nowMs : Nat}

theorem observe_warming (named : scope ≠ 0) (isScope : t.sample.scope = scope)
    (clock : nowMs ≤ t.nowMs) (early : t.nowMs < startMs + kWarmupMs) :
    (warming scope startMs nowMs).observe t.sample t.nowMs = warming scope startMs t.nowMs := by
  have short : elapsed t.nowMs startMs kWarmupMs = false := by
    simp only [elapsed, Bool.and_eq_false_iff, decide_eq_false_iff_not]
    omega
  subst isScope
  simp [observe, warming, start, named, short, Nat.not_lt.mpr clock]

theorem observe_opens (named : scope ≠ 0) (isScope : t.sample.scope = scope)
    (clock : nowMs ≤ t.nowMs) (late : startMs + kWarmupMs ≤ t.nowMs) :
    (warming scope startMs nowMs).observe t.sample t.nowMs =
      (opened scope startMs t.nowMs).observe t.sample t.nowMs := by
  have past : elapsed t.nowMs startMs kWarmupMs = true := by
    simp only [elapsed, Bool.and_eq_true, decide_eq_true_eq]
    omega
  subst isScope
  simp [observe, warming, opened, startSampling, start, named, past, Nat.not_lt.mpr clock]

theorem observe_first (named : scope ≠ 0) (isScope : t.sample.scope = scope) :
    ({} : NativeBenchmarkCollector).observe t.sample t.nowMs = warming scope t.nowMs t.nowMs := by
  have short : elapsed t.nowMs t.nowMs kWarmupMs = false := by
    have : 0 < kWarmupMs := by decide
    simp only [elapsed, Bool.and_eq_false_iff, decide_eq_false_iff_not]
    omega
  subst isScope
  simp [observe, warming, start, named, named.symm, short]

theorem warmup_run (named : scope ≠ 0) (calls : List BenchmarkTick)
    (isScope : ∀ t ∈ calls, t.sample.scope = scope) (clock : ∀ t ∈ calls, nowMs ≤ t.nowMs)
    (sorted : calls.Pairwise fun a b => a.nowMs ≤ b.nowMs) {head : BenchmarkTick}
    {tail : List BenchmarkTick}
    (sampled : calls.dropWhile (fun t => t.nowMs < startMs + kWarmupMs) = head :: tail) :
    calls.foldl (fun c t => c.observe t.sample t.nowMs) (warming scope startMs nowMs) =
      (head :: tail).foldl (fun c t => c.observe t.sample t.nowMs) (opened scope startMs head.nowMs) := by
  induction calls generalizing nowMs with
  | nil => cases sampled
  | cons t calls ih =>
    have isFirst := isScope t List.mem_cons_self
    have isNow := clock t List.mem_cons_self
    rw [List.pairwise_cons] at sorted
    rw [List.foldl_cons]
    by_cases early : t.nowMs < startMs + kWarmupMs
    · rw [List.dropWhile_cons_of_pos (by simpa using early)] at sampled
      rw [observe_warming named isFirst isNow early]
      exact ih (fun u mem => isScope u (List.mem_cons_of_mem t mem)) sorted.1 sorted.2 sampled
    · rw [List.dropWhile_cons_of_neg (by simpa using early)] at sampled
      cases sampled
      rw [observe_opens named isFirst isNow (Nat.not_lt.mp early), List.foldl_cons]

theorem SteadyFeed.collectorAfter_eq (steady : SteadyFeed feed scope) : ∃ startMs,
    collectorAfter feed = (sampledFrom feed).foldl (fun c t => c.observe t.sample t.nowMs)
      (opened scope startMs (sampleStart feed)) := by
  obtain ⟨named, isScope, _, sorted, _, _, _, _, _, _, _, closing, isSampled, _⟩ := steady
  cases feed with
  | nil => cases isSampled
  | cons first calls =>
    refine ⟨first.nowMs, ?_⟩
    rw [List.pairwise_cons] at sorted
    unfold sampleStart
    cases sampled : sampledFrom (first :: calls) with
    | nil =>
      rw [sampled] at isSampled
      cases isSampled
    | cons head tail =>
      rw [collectorAfter, List.foldl_cons, observe_first named (isScope first List.mem_cons_self)]
      exact warmup_run named calls (fun t mem => isScope t (List.mem_cons_of_mem first mem)) sorted.1
        sorted.2 sampled

theorem opened_good (feed : List BenchmarkTick) (scope startMs : Nat) :
    Good feed scope (sampleStart feed) [] [] (opened scope startMs (sampleStart feed)) where
  scope := rfl
  now := rfl
  running := .inl rfl
  start := rfl
  stop := rfl
  drain := rfl
  first := rfl
  overflow := rfl
  lost := rfl
  tidy := fun _ isUsed => absurd rfl isUsed
  frames := by
    rw [used, Finset.filter_false_of_mem fun i _ isUsed => isUsed rfl]
    exact Nat.le_refl 0
  kept := fun _ isUsed => absurd rfl isUsed
  held := nofun
  strays := by
    rw [used, Finset.filter_false_of_mem fun i _ isUsed => isUsed rfl]
    rfl
  strayed := fun _ isUsed => absurd rfl isUsed

theorem SteadyFeed.sample_clock (steady : SteadyFeed feed scope)
    (split : feed = warm ++ sampledFrom feed) :
    (sampledFrom feed).Pairwise (fun a b => a.nowMs ≤ b.nowMs) ∧
      ∀ t ∈ sampledFrom feed, sampleStart feed ≤ t.nowMs := by
  have sorted := steady.clock
  rw [split, List.pairwise_append] at sorted
  refine ⟨sorted.2.1, fun t mem => ?_⟩
  unfold sampleStart
  have later := sorted.2.1
  cases isSampled : sampledFrom feed with
  | nil =>
    rw [isSampled] at mem
    cases mem
  | cons head tail =>
    rw [isSampled] at mem later
    rcases List.mem_cons.mp mem with rfl | isTail
    · exact Nat.le_refl _
    · exact (List.pairwise_cons.mp later).1 t isTail

theorem SteadyFeed.run (steady : SteadyFeed feed scope) (split : feed = warm ++ sampledFrom feed)
    (early : ∀ u ∈ warm, u.nowMs < sampleStart feed) (startMs : Nat) (w more : List BenchmarkTick)
    (parts : sampledFrom feed = w ++ more) (unclosed : ∀ t ∈ w, ¬Closing feed t) :
    ((w.filter fun t => Stray feed t).length ≤ kOrphanCapacity ∧
      ∃ now, Good feed scope now w w (w.foldl (fun c t => c.observe t.sample t.nowMs)
        (opened scope startMs (sampleStart feed))) ∧ ∀ t ∈ more, now ≤ t.nowMs) ∨
    (kOrphanCapacity < (w.filter fun t => Stray feed t).length ∧
      Overflowed (w.foldl (fun c t => c.observe t.sample t.nowMs)
        (opened scope startMs (sampleStart feed)))) := by
  obtain ⟨sorted, started⟩ := steady.sample_clock split
  induction w using List.reverseRecOn generalizing more with
  | nil =>
    refine .inl ⟨Nat.zero_le _, _, opened_good feed scope startMs, fun t mem => started t ?_⟩
    rw [parts]
    exact mem
  | append_singleton w t ih =>
    rw [List.append_assoc, List.singleton_append] at parts
    have before := ih (t :: more) parts fun u mem => unclosed u (List.mem_append_left _ mem)
    have counted : ((w ++ [t]).filter fun t => Stray feed t).length =
        (w.filter fun t => Stray feed t).length + if Stray feed t then 1 else 0 := by
      by_cases stray : Stray feed t
      · simp [List.filter_append, stray]
      · simp [List.filter_append, stray]
    rw [List.foldl_append, counted]
    rcases before with ⟨fits, now, good, clock⟩ | ⟨full, overflowed⟩
    · have whole : feed = warm ++ (w ++ t :: more) := by
        rw [← parts]
        exact split
      have taken := steady.takes whole early good (clock t List.mem_cons_self)
        (unclosed t (List.mem_append_right _ (List.mem_singleton_self t)))
      have later : ∀ u ∈ more, t.nowMs ≤ u.nowMs := by
        rw [parts, List.pairwise_append, List.pairwise_cons] at sorted
        exact sorted.2.1.1
      split at taken
      · rename_i room
        refine .inl ⟨?_, _, taken, later⟩
        split
        · rename_i stray
          exact room.resolve_right fun apart => apart stray
        · exact fits
      · rename_i noRoom
        refine .inr ⟨?_, taken⟩
        have stray : Stray feed t := by
          by_contra apart
          exact noRoom (.inr apart)
        rw [if_pos stray]
        omega
    · refine .inr ⟨Nat.lt_of_lt_of_le full (Nat.le_add_right _ _), ?_⟩
      rw [List.foldl_cons, List.foldl_nil, overflowed.observe]
      exact overflowed

theorem NativeBenchmarkCollector.Good.closes {gs : List BenchmarkTick}
    (h : Good feed scope now cs gs c) (steady : SteadyFeed feed scope) (mem : t ∈ feed)
    (clock : now ≤ t.nowMs) (closing : Closing feed t) : let c' := c.observe t.sample t.nowMs
    c'.phase = .complete ∧ c'.abortReason = .completed ∧ c'.overflow = false ∧ c'.entries = c.entries := by
  obtain ⟨noCpu, noGpu, past⟩ := closing
  have isScope : c.scope = t.sample.scope := by rw [h.scope, steady.scope t mem]
  have sampled : elapsed t.nowMs (sampleEnd feed) 0 = true := by
    simp only [elapsed, Nat.zero_le, decide_true, Bool.and_true, decide_eq_true_eq]
    exact Nat.le_trans (Nat.le_add_right _ _) past
  have drained : elapsed t.nowMs (drainEnd feed) 0 = true := by
    simpa [elapsed] using past
  rw [observe_open h.running isScope (by rw [h.scope]; exact steady.named) (by rw [h.now]; exact clock)]
  have idle : (NativeBenchmarkCollector.addCpu { c with lastNowMs := t.nowMs } t.sample).addGpu t.sample =
      { c with lastNowMs := t.nowMs } := by
    unfold NativeBenchmarkCollector.addCpu
    rw [if_pos (.inl noCpu)]
    unfold NativeBenchmarkCollector.addGpu
    rw [if_pos (.inl noGpu)]
  unfold takeIn
  rw [idle, if_neg (by rw [h.overflow]; decide)]
  rcases h.running with isPhase | isPhase
  · simp [isPhase, h.stop, h.drain, sampled, drained, noCpu, noGpu, finish, h.lost, h.overflow]
  · simp [isPhase, h.drain, drained, noCpu, noGpu, finish, h.lost, h.overflow]

theorem observe_complete (complete : c.phase = .complete) (calls : List BenchmarkTick) :
    calls.foldl (fun c t => c.observe t.sample t.nowMs) c = c := by
  induction calls with
  | nil => rfl
  | cons t calls ih =>
    rw [List.foldl_cons, NativeBenchmarkCollector.observe, if_pos complete]
    exact ih

theorem SteadyFeed.window_split (steady : SteadyFeed feed scope) : ∃ x after,
    sampledFrom feed = window feed ++ x :: after ∧ Closing feed x ∧ ∀ t ∈ window feed, ¬Closing feed t := by
  obtain ⟨t, mem, closing⟩ := steady.idles
  have open_ : ∀ u ∈ window feed, ¬Closing feed u := by
    intro u isOpen
    simpa using List.mem_takeWhile_imp isOpen
  cases rest : (sampledFrom feed).dropWhile fun t => ¬Closing feed t with
  | nil =>
    have all := List.dropWhile_eq_nil_iff.mp rest t mem
    simp only [decide_eq_true_eq] at all
    exact absurd closing all
  | cons x after =>
    refine ⟨x, after, ?_, ?_, open_⟩
    · rw [← rest, window, List.takeWhile_append_dropWhile]
    · have := List.head?_dropWhile_not (fun t => decide ¬Closing feed t) (sampledFrom feed)
      rw [rest] at this
      simpa using this

theorem SteadyFeed.in_window (steady : SteadyFeed feed scope) (split : feed = warm ++ sampledFrom feed)
    (early : ∀ u ∈ warm, u.nowMs < sampleStart feed) (mem : t ∈ feed) (inside : InSample feed t)
    (result : u ∈ feed) (same : u.sample.gpuSequence = t.sample.cpuSequence) :
    t ∈ window feed ∧ u ∈ window feed := by
  obtain ⟨x, after, parts, closing, _⟩ := steady.window_split
  obtain ⟨before, rest, isSplit⟩ := List.append_of_mem result
  obtain ⟨isBefore, inTime⟩ := steady.frame_before isSplit mem inside.1 same.symm
  have unWarm : t ∉ warm := fun isWarm => steady.not_early mem (early t isWarm) inside
  have open_ : u.nowMs < x.nowMs := by
    have := inside.2.2
    have := closing.2.2
    unfold drainEnd at this
    omega
  have sorted := steady.clock
  have order : t.nowMs ≤ u.nowMs := by
    rw [isSplit, List.pairwise_append] at sorted
    rcases List.mem_append.mp isBefore with left | last
    · exact sorted.2.2 t left u List.mem_cons_self
    · rw [List.mem_singleton.mp last]
  have placed : ∀ v ∈ feed, v ∉ warm → v.nowMs < x.nowMs → v ∈ window feed := by
    intro v isCall unEarly soon
    rw [split, parts] at isCall sorted
    rcases List.mem_append.mp isCall with isWarm | isSampled
    · exact absurd isWarm unEarly
    · rcases List.mem_append.mp isSampled with isOpen | late
      · exact isOpen
      · rw [List.pairwise_append, List.pairwise_append, List.pairwise_cons] at sorted
        rcases List.mem_cons.mp late with rfl | later
        · exact absurd soon (Nat.lt_irrefl _)
        · exact absurd (sorted.2.1.2.1.1 v later) (Nat.not_le.mpr soon)
  refine ⟨placed t mem unWarm (Nat.lt_of_le_of_lt order open_), placed u result ?_ open_⟩
  intro isWarm
  have := early u isWarm
  have := steady.published t mem inside.1
  have := inside.2.1
  omega

theorem served_iff (steady : SteadyFeed feed scope) : Served feed ↔ strays feed ≤ kOrphanCapacity := by
  obtain ⟨startMs, run⟩ := steady.collectorAfter_eq
  obtain ⟨warm, split, before⟩ := exists_warmup feed
  obtain ⟨x, after, parts, closing, unclosed⟩ := steady.window_split
  have early := before (by rw [parts]; exact List.append_ne_nil_of_right_ne_nil _ nofun)
  have xMem : x ∈ feed := by
    rw [split, parts]
    exact List.mem_append_right _ (List.mem_append_right _ List.mem_cons_self)
  have outcome := steady.run split early startMs (window feed) (x :: after) parts unclosed
  rw [parts, List.foldl_append] at run
  rcases outcome with ⟨fits, now, good, clock⟩ | ⟨full, overflowed⟩
  · refine ⟨fun _ => fits, fun _ => ?_⟩
    rw [List.foldl_cons] at run
    obtain ⟨complete, reason, overflow, entries⟩ :=
      good.closes steady xMem (clock x List.mem_cons_self) closing
    rw [observe_complete complete] at run
    refine ⟨by rw [run]; exact complete, by rw [run]; exact reason, by rw [run]; exact overflow, ?_⟩
    intro t mem inside
    obtain ⟨u, result, same⟩ := steady.paired t mem inside.1
    obtain ⟨tOpen, uOpen⟩ := steady.in_window split early mem inside result same
    obtain ⟨i, key, results⟩ := good.held t tOpen inside
    refine ⟨u, result, same, i, ?_⟩
    rw [run, entries]
    exact ⟨key, (good.kept i (by rw [key]; exact inside.1)).2.1, results u uOpen same⟩
  · refine ⟨fun served => ?_, fun fits => absurd full (Nat.not_lt.mpr fits)⟩
    have reason := served.reason
    rw [run, observe_complete overflowed.1, overflowed.2] at reason
    cases reason

end

end EdvrPatch.Benchmark
