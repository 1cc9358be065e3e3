import EdvrPatch.Benchmark.Capacity

/-! Frames at 200 a second, each with its result two milliseconds later. They are steady
whenever they come, and when they come in the drain their results are strays. -/
namespace EdvrPatch.Benchmark

open Lib

def idleAt (nowMs : Nat) : BenchmarkTick := ⟨{ scope := 1 }, nowMs⟩

def cpuTick (t₀ k : Nat) : BenchmarkTick :=
  ⟨{ scope := 1, cpuSequence := k + 1, cpuAtMs := t₀ + 5 * k, cpuValid := true }, t₀ + 5 * k⟩

def gpuTick (t₀ k : Nat) : BenchmarkTick :=
  ⟨{ scope := 1, gpuSequence := k + 1, gpuAtMs := t₀ + 5 * k + 2, gpuValid := true }, t₀ + 5 * k + 2⟩

def evenFrames (t₀ n : Nat) : List BenchmarkTick :=
  (List.range n).flatMap fun k => [cpuTick t₀ k, gpuTick t₀ k]

def evenFeed (t₀ n : Nat) : List BenchmarkTick :=
  idleAt 0 :: idleAt 2000 :: (evenFrames t₀ n ++ [idleAt 36000])

section

variable {t₀ n : Nat}

theorem mem_evenFrames {t : BenchmarkTick} :
    t ∈ evenFrames t₀ n ↔ ∃ k < n, t = cpuTick t₀ k ∨ t = gpuTick t₀ k := by
  simp [evenFrames, List.mem_flatMap]

theorem mem_evenFeed {t : BenchmarkTick} (mem : t ∈ evenFeed t₀ n) :
    (∃ now, t = idleAt now) ∨ ∃ k < n, t = cpuTick t₀ k ∨ t = gpuTick t₀ k := by
  rcases List.mem_cons.mp mem with rfl | mem
  · exact .inl ⟨0, rfl⟩
  rcases List.mem_cons.mp mem with rfl | mem
  · exact .inl ⟨2000, rfl⟩
  rcases List.mem_append.mp mem with frame | last
  · exact .inr (mem_evenFrames.mp frame)
  · exact .inl ⟨36000, List.mem_singleton.mp last⟩

theorem pairwise_evenFeed {R : BenchmarkTick → BenchmarkTick → Prop} (idles : R (idleAt 0) (idleAt 2000))
    (last : R (idleAt 0) (idleAt 36000) ∧ R (idleAt 2000) (idleAt 36000))
    (frame : ∀ k < n, R (cpuTick t₀ k) (gpuTick t₀ k))
    (around : ∀ k < n, ∀ t, t = cpuTick t₀ k ∨ t = gpuTick t₀ k →
      R (idleAt 0) t ∧ R (idleAt 2000) t ∧ R t (idleAt 36000))
    (frames : ∀ k l, k < l → l < n → ∀ t u, t = cpuTick t₀ k ∨ t = gpuTick t₀ k →
      u = cpuTick t₀ l ∨ u = gpuTick t₀ l → R t u) : (evenFeed t₀ n).Pairwise R := by
  rw [evenFeed, List.pairwise_cons, List.pairwise_cons, List.pairwise_append]
  refine ⟨?_, ?_, ?_, List.pairwise_singleton R _, ?_⟩
  · intro t mem
    rcases List.mem_cons.mp mem with rfl | mem
    · exact idles
    rcases List.mem_append.mp mem with isFrame | isLast
    · obtain ⟨k, small, isTick⟩ := mem_evenFrames.mp isFrame
      exact (around k small t isTick).1
    · rw [List.mem_singleton.mp isLast]
      exact last.1
  · intro t mem
    rcases List.mem_append.mp mem with isFrame | isLast
    · obtain ⟨k, small, isTick⟩ := mem_evenFrames.mp isFrame
      exact (around k small t isTick).2.1
    · rw [List.mem_singleton.mp isLast]
      exact last.2
  · rw [evenFrames, List.pairwise_flatMap]
    refine ⟨fun k mem => ?_, ?_⟩
    · simpa using frame k (List.mem_range.mp mem)
    · refine List.Pairwise.imp_of_mem ?_ (List.pairwise_lt_range (n := n))
      intro k l _ mem less t isK u isL
      exact frames k l less (List.mem_range.mp mem) t u (by simpa using isK) (by simpa using isL)
  · intro t isFrame u isLast
    obtain ⟨k, small, isTick⟩ := mem_evenFrames.mp isFrame
    rw [List.mem_singleton.mp isLast]
    exact (around k small t isTick).2.2

theorem countP_range_le (a m n : Nat) : (List.range n).countP (fun k => a ≤ k ∧ k < a + m) ≤ m := by
  have exact_ : (List.range n).countP (fun k => a ≤ k ∧ k < a + m) = min n (a + m) - a := by
    induction n with
    | zero => simp
    | succ n ih =>
      rw [List.range_succ, List.countP_append, ih, List.countP_singleton]
      split
      · rename_i inside
        simp only [decide_eq_true_eq] at inside
        omega
      · rename_i outside
        simp only [decide_eq_true_eq] at outside
        omega
  omega

def Results (l : List BenchmarkTick) : Prop :=
  ∀ before t after, l = before ++ t :: after → t.sample.gpuSequence ≠ 0 →
    ∃ u ∈ before ++ [t], u.sample.cpuSequence = t.sample.gpuSequence ∧
      t.nowMs ≤ u.sample.cpuAtMs + kDrainMs

theorem Results.append {l m : List BenchmarkTick} (left : Results l) (right : Results m) :
    Results (l ++ m) := by
  intro before t after split nonzero
  rcases List.append_eq_append_iff.mp split with ⟨middle, isBefore, isRest⟩ | ⟨middle, isLeft, isRest⟩
  · obtain ⟨u, mem, rest⟩ := right middle t after isRest nonzero
    refine ⟨u, ?_, rest⟩
    rw [isBefore, List.append_assoc]
    exact List.mem_append_right _ mem
  · cases middle with
    | nil =>
      obtain ⟨u, mem, rest⟩ := right [] t after isRest.symm nonzero
      exact ⟨u, List.mem_append_right _ mem, rest⟩
    | cons head tail =>
      cases isRest
      exact left before t tail isLeft nonzero

theorem Results.idle (now : Nat) : Results [idleAt now] := by
  intro before t after split nonzero
  have mem : t ∈ [idleAt now] := by
    rw [split]
    exact List.mem_append_right _ List.mem_cons_self
  rw [List.mem_singleton.mp mem] at nonzero
  exact absurd rfl nonzero

theorem Results.frame (t₀ k : Nat) : Results [cpuTick t₀ k, gpuTick t₀ k] := by
  intro before t after split nonzero
  cases before with
  | nil =>
    cases split
    exact absurd rfl nonzero
  | cons first rest =>
    refine ⟨first, List.mem_append_left _ List.mem_cons_self, ?_⟩
    have isFirst : cpuTick t₀ k = first := (List.cons.inj split).1
    have isRest : [gpuTick t₀ k] = rest ++ t :: after := (List.cons.inj split).2
    have isSecond : t = gpuTick t₀ k := by
      have mem : t ∈ [gpuTick t₀ k] := by
        rw [isRest]
        exact List.mem_append_right _ List.mem_cons_self
      exact List.mem_singleton.mp mem
    rw [← isFirst, isSecond]
    refine ⟨rfl, ?_⟩
    simp only [cpuTick, gpuTick, kDrainMs]
    omega

theorem Results.frames (t₀ n : Nat) : Results (evenFrames t₀ n) := by
  induction n with
  | zero =>
    intro before t after split
    exact absurd split (by simp [evenFrames])
  | succ n ih =>
    rw [evenFrames, List.range_succ, List.flatMap_append]
    exact ih.append (by simpa using Results.frame t₀ n)

theorem countP_evenFrames (t₀ n : Nat) (p : BenchmarkTick → Bool) :
    (evenFrames t₀ n).countP p = (List.range n).countP (fun k => p (cpuTick t₀ k)) +
      (List.range n).countP fun k => p (gpuTick t₀ k) := by
  induction n with
  | zero => rfl
  | succ n ih =>
    have last : evenFrames t₀ (n + 1) = evenFrames t₀ n ++ [cpuTick t₀ n, gpuTick t₀ n] := by
      rw [evenFrames, List.range_succ, List.flatMap_append]
      simp [evenFrames]
    rw [last, List.range_succ, List.countP_append, List.countP_append, List.countP_append, ih]
    simp only [List.countP_cons, List.countP_nil]
    omega

theorem countP_evenFeed (t₀ n : Nat) (p : BenchmarkTick → Bool) (idle : ∀ now, p (idleAt now) = false) :
    (evenFeed t₀ n).countP p = (List.range n).countP (fun k => p (cpuTick t₀ k)) +
      (List.range n).countP fun k => p (gpuTick t₀ k) := by
  rw [← countP_evenFrames]
  simp [evenFeed, List.countP_append, idle]

theorem sampledFrom_evenFeed (t₀ n : Nat) :
    sampledFrom (evenFeed t₀ n) = idleAt 2000 :: (evenFrames t₀ n ++ [idleAt 36000]) := by
  rw [evenFeed, sampledFrom, List.dropWhile_cons_of_neg]
  simp [idleAt, kWarmupMs]

theorem sampleStart_evenFeed (t₀ n : Nat) : sampleStart (evenFeed t₀ n) = 2000 := by
  rw [sampleStart, sampledFrom_evenFeed]
  rfl

theorem evenFeed_steady (after : 2000 ≤ t₀) (before : t₀ + 5 * n ≤ 36000) :
    SteadyFeed (evenFeed t₀ n) 1 where
  named := by decide
  scope := by
    intro t mem
    rcases mem_evenFeed mem with ⟨now, rfl⟩ | ⟨k, _, rfl | rfl⟩
    · rfl
    · rfl
    · rfl
  unwrapped := by
    intro t mem
    have early : t.nowMs ≤ 36000 := by
      simp only [evenFeed, List.mem_cons, List.mem_append, List.not_mem_nil, or_false,
        mem_evenFrames] at mem
      rcases mem with rfl | rfl | ⟨k, small, rfl | rfl⟩ | rfl
      all_goals
        simp only [cpuTick, gpuTick, idleAt]
        omega
    unfold kSampleMs kDrainMs
    omega
  clock := by
    refine pairwise_evenFeed ?_ ?_ ?_ ?_ ?_
    · decide
    · decide
    · intro k _
      simp only [cpuTick, gpuTick]
      omega
    · rintro k small t (rfl | rfl)
      · simp only [cpuTick, idleAt]
        omega
      · simp only [gpuTick, idleAt]
        omega
    · rintro k l less small t u (rfl | rfl) (rfl | rfl)
      all_goals
        simp only [cpuTick, gpuTick]
        omega
  cpuOnce := by
    refine pairwise_evenFeed ?_ ?_ ?_ ?_ ?_
    · exact fun nonzero => absurd rfl nonzero
    · exact ⟨fun nonzero => absurd rfl nonzero, fun nonzero => absurd rfl nonzero⟩
    · intro k _
      simp [cpuTick, gpuTick]
    · rintro k small t (rfl | rfl)
      · simp [cpuTick, idleAt]
      · simp [gpuTick, idleAt]
    · rintro k l less small t u (rfl | rfl) (rfl | rfl)
      all_goals
        simp only [cpuTick, gpuTick]
        omega
  gpuOnce := by
    refine pairwise_evenFeed ?_ ?_ ?_ ?_ ?_
    · exact fun nonzero => absurd rfl nonzero
    · exact ⟨fun nonzero => absurd rfl nonzero, fun nonzero => absurd rfl nonzero⟩
    · intro k _
      simp [cpuTick]
    · rintro k small t (rfl | rfl)
      · simp [cpuTick, idleAt]
      · simp [gpuTick, idleAt]
    · rintro k l less small t u (rfl | rfl) (rfl | rfl)
      all_goals
        simp only [cpuTick, gpuTick]
        omega
  rate := by
    intro t₁
    rw [← List.countP_eq_length_filter, countP_evenFeed _ _ _ fun now => by simp [idleAt]]
    have results : (List.range n).countP (fun k => decide ((gpuTick t₀ k).sample.cpuSequence ≠ 0 ∧
        t₁ ≤ (gpuTick t₀ k).sample.cpuAtMs ∧ (gpuTick t₀ k).sample.cpuAtMs < t₁ + 1000)) = 0 := by
      simp [gpuTick]
    rw [results]
    refine Nat.le_trans (Nat.le_trans (List.countP_mono_left ?_)
      (countP_range_le ((t₁ + 4 - t₀) / 5) 200 n)) (by decide)
    intro k _ inside
    have ⟨_, low, high⟩ := of_decide_eq_true inside
    dsimp only [cpuTick] at low high
    refine decide_eq_true ⟨?_, ?_⟩
    · omega
    · omega
  published := by
    intro t mem nonzero
    rcases mem_evenFeed mem with ⟨now, rfl⟩ | ⟨k, _, rfl | rfl⟩
    · exact absurd rfl nonzero
    · exact Nat.le_refl _
    · exact absurd rfl nonzero
  completed := by
    intro t mem nonzero
    rcases mem_evenFeed mem with ⟨now, rfl⟩ | ⟨k, _, rfl | rfl⟩
    · exact absurd rfl nonzero
    · exact absurd rfl nonzero
    · exact Nat.le_refl _
  paired := by
    intro t mem nonzero
    rcases mem_evenFeed mem with ⟨now, rfl⟩ | ⟨k, small, rfl | rfl⟩
    · exact absurd rfl nonzero
    · refine ⟨gpuTick t₀ k, ?_, rfl⟩
      refine List.mem_cons_of_mem _ (List.mem_cons_of_mem _ (List.mem_append_left _ ?_))
      exact mem_evenFrames.mpr ⟨k, small, .inr rfl⟩
    · exact absurd rfl nonzero
  later := (Results.idle 0).append ((Results.idle 2000).append ((Results.frames t₀ n).append
    (Results.idle 36000)))
  idles := by
    refine ⟨idleAt 36000, ?_, rfl, rfl, ?_⟩
    · rw [sampledFrom_evenFeed]
      exact List.mem_cons_of_mem _ (List.mem_append_right _ (List.mem_singleton_self _))
    · rw [drainEnd, sampleEnd, sampleStart_evenFeed]
      decide

theorem strays_evenFeed_le (t₀ n : Nat) : strays (evenFeed t₀ n) ≤ n := by
  have open_ : (window (evenFeed t₀ n)).Sublist (evenFeed t₀ n) := by
    refine (List.takeWhile_sublist _).trans ?_
    rw [sampledFrom_evenFeed]
    exact List.sublist_cons_self _ _
  have results : (evenFeed t₀ n).countP (fun t => t.sample.gpuSequence ≠ 0) = n := by
    rw [countP_evenFeed _ _ _ fun now => by simp [idleAt]]
    simp [cpuTick, gpuTick]
  rw [strays, ← List.countP_eq_length_filter]
  calc
    _ ≤ (window (evenFeed t₀ n)).countP (fun t => t.sample.gpuSequence ≠ 0) := by
      apply List.countP_mono_left
      intro t _ stray
      exact decide_eq_true (of_decide_eq_true stray).1
    _ ≤ (evenFeed t₀ n).countP (fun t => t.sample.gpuSequence ≠ 0) := open_.countP_le
    _ = n := results

theorem strays_evenFeed (n : Nat) (small : 5 * n ≤ 2000) : n ≤ strays (evenFeed 32000 n) := by
  have late : ∀ u ∈ evenFeed 32000 n, ¬InSample (evenFeed 32000 n) u := by
    intro u mem inside
    obtain ⟨nonzero, _, early⟩ := inside
    rw [sampleEnd, sampleStart_evenFeed] at early
    rcases mem_evenFeed mem with ⟨now, rfl⟩ | ⟨k, _, rfl | rfl⟩
    · exact nonzero rfl
    · simp only [cpuTick, kSampleMs] at early
      omega
    · exact nonzero rfl
  have unclosed : ∀ t ∈ evenFrames 32000 n, ¬Closing (evenFeed 32000 n) t := by
    intro t mem closing
    obtain ⟨k, _, rfl | rfl⟩ := mem_evenFrames.mp mem
    · exact nomatch closing.1
    · exact nomatch closing.2.1
  have first : ¬Closing (evenFeed 32000 n) (idleAt 2000) := by
    rintro ⟨_, _, past⟩
    rw [drainEnd, sampleEnd, sampleStart_evenFeed] at past
    exact absurd past (by decide)
  have isWindow : ∃ last, window (evenFeed 32000 n) = idleAt 2000 :: (evenFrames 32000 n ++ last) := by
    rw [window, sampledFrom_evenFeed, List.takeWhile_cons_of_pos (by simpa using first),
      List.takeWhile_append_of_pos fun t mem => by simpa using unclosed t mem]
    exact ⟨_, rfl⟩
  obtain ⟨last, isWindow⟩ := isWindow
  have all : (List.range n).countP (fun k => decide (Stray (evenFeed 32000 n) (gpuTick 32000 k))) = n := by
    rw [List.countP_eq_length.mpr, List.length_range]
    intro k mem
    have := List.mem_range.mp mem
    refine decide_eq_true ⟨nofun, ?_, ?_, fun u isCall inside => absurd inside (late u isCall)⟩
    · rw [sampleStart_evenFeed]
      simp only [gpuTick]
      omega
    · rw [drainEnd, sampleEnd, sampleStart_evenFeed]
      simp only [gpuTick, kSampleMs, kDrainMs]
      omega
  rw [strays, ← List.countP_eq_length_filter, isWindow, List.countP_cons, List.countP_append,
    countP_evenFrames, all]
  omega

end

/-- The window does what it is for if and only if no more than 256 results of frames from
outside the sample come while it is open. -/
theorem window_served_iff (feed : List BenchmarkTick) (scope : Nat) (steady : SteadyFeed feed scope) :
    Served feed ↔ strays feed ≤ kOrphanCapacity :=
  served_iff steady

/-- The last second of the sample. -/
theorem window_served_iff_second : SteadyFeed (evenFeed 31000 200) 1 ∧ Served (evenFeed 31000 200) := by
  have steady : SteadyFeed (evenFeed 31000 200) 1 := evenFeed_steady (by decide) (by decide)
  refine ⟨steady, (window_served_iff _ 1 steady).mpr ?_⟩
  exact Nat.le_trans (strays_evenFeed_le 31000 200) (by decide)

/-- Less than the first two thirds of the drain. -/
theorem window_overflows : SteadyFeed (evenFeed 32000 257) 1 ∧ ¬Served (evenFeed 32000 257) := by
  have steady : SteadyFeed (evenFeed 32000 257) 1 := evenFeed_steady (by decide) (by decide)
  refine ⟨steady, fun served => ?_⟩
  have fits := (served_iff steady).mp served
  exact absurd (Nat.le_trans (strays_evenFeed 257 (by decide)) fits) (by decide)

end EdvrPatch.Benchmark
