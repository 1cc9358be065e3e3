import EdvrPatch.Benchmark.BookWindow
import EdvrPatch.Benchmark.Report

/-! The report of a window and the order in which its observations were delivered. A result that is
older than the sample is kept when its frame has come, and is dropped when it has not. -/
namespace EdvrPatch.Benchmark

open Lib NativeBenchmarkCollector

def openedAt (calls : List BenchmarkTick) : Nat := (calls.head?.map BenchmarkTick.nowMs).getD 0

/-- After the warm-up, and with the clock short of its end by a window, some observations are
delivered in `calls`, the first of which opens the sample. None comes twice in its stream, and
the window is completed. -/
structure Delivery (warm calls : List BenchmarkTick) : Prop where
  unwrapped : ∀ t ∈ warm ++ calls, t.nowMs + kSampleMs + kDrainMs < 2 ^ 64
  warming : (collectorAfter warm).phase = .warmup
  opens : (collectorAfter (warm ++ calls.take 1)).phase ≠ .warmup
  takes : TakesAll ((collectorAfter warm).startSampling (openedAt calls)) calls
  once : Once (eventsOf calls)
  complete : (collectorAfter (warm ++ calls)).phase = .complete
  completed : (collectorAfter (warm ++ calls)).abortReason = .completed
  fits : (collectorAfter (warm ++ calls)).overflow = false

def sampled (calls : List BenchmarkTick) : List Part :=
  (cpuParts (eventsOf calls)).filter fun p => p.InWindow (openedAt calls)

/-- No result from before the sample is delivered ahead of a frame of the sample that it
belongs to. -/
def LosesNone (calls : List BenchmarkTick) : Prop := NoneEarly (openedAt calls) (eventsOf calls)

structure SameObservations (calls calls' : List BenchmarkTick) : Prop where
  clock : calls.map BenchmarkTick.nowMs = calls'.map BenchmarkTick.nowMs
  parts : SameParts (eventsOf calls) (eventsOf calls')

def settledOrder (evs : List Event) : List Event :=
  (cpuParts evs).map .cpu ++ (gpuParts evs).map .gpu

def Book.distribution (std : StdSort) (b : Book) (cpu : Bool) : NativeBenchmarkDistribution :=
  (Tally.ofRows (b.frames.map Frame.entry) cpu).distribution std

def reportOf (std : StdSort) (warm calls : List BenchmarkTick) : Option NativeBenchmarkReport :=
  ((collectorAfter (warm ++ calls)).takeReport std).1

def NativeBenchmarkReport.Same (a b : NativeBenchmarkReport) : Prop := a.cpu.Same b.cpu ∧ a.gpu.Same b.gpu

/-- The distributions are those of the observations in the settled order. -/
def NativeBenchmarkReport.Settled (std : StdSort) (calls : List BenchmarkTick) (r : NativeBenchmarkReport) : Prop :=
  let book := bookOf (openedAt calls) (settledOrder (eventsOf calls))
  r.cpu.Same (book.distribution std true) ∧ r.gpu.Same (book.distribution std false)

def storedValues (c : NativeBenchmarkCollector) (cpu : Bool) : List UInt64 :=
  (tally (List.ofFn c.entries) cpu).values

section

variable {start : Nat} {evs evs' : List Event} {c : NativeBenchmarkCollector}
  {entries : Fin kCapacity → Entry} {frames : List Frame} {std : StdSort} {cpu : Bool} {warm calls calls' : List BenchmarkTick}

theorem Delivery.clean (d : Delivery warm calls) : 0 < openedAt calls ∧
    Clean (openedAt calls) (eventsOf calls) (collectorAfter (warm ++ calls)) := by
  cases calls with
  | nil =>
    have complete := d.complete
    rw [List.append_nil, d.warming] at complete
    cases complete
  | cons first rest =>
    have opens : ((collectorAfter warm).observe first.sample first.nowMs).phase ≠ .warmup := by
      have phase := d.opens
      unfold collectorAfter at phase
      rw [List.foldl_append] at phase
      exact phase
    obtain ⟨unbound, late, equation⟩ := observe_opening d.warming opens
    have pos : 0 < openedAt (first :: rest) := Nat.lt_of_lt_of_le (by decide) late
    refine ⟨pos, ?_⟩
    have opened : Clean (openedAt (first :: rest)) []
        ((collectorAfter warm).startSampling (openedAt (first :: rest))) :=
      ⟨⟨rfl, rfl, rfl, rfl, rfl, Framed.empty, Strayed.empty⟩, unbound, collectorAfter_lost warm, rfl, rfl⟩
    have whole : collectorRun ((collectorAfter warm).startSampling (openedAt (first :: rest))) (first :: rest) =
        collectorAfter (warm ++ first :: rest) := by
      unfold collectorRun collectorAfter
      rw [List.foldl_append, List.foldl_cons, List.foldl_cons]
      exact congrArg (rest.foldl fun c t => c.observe t.sample t.nowMs) equation.symm
    have once : Once ([] ++ eventsOf (first :: rest)) := d.once
    have run := opened.run (.inl rfl) pos once ⟨nofun, nofun⟩ d.takes
    rw [whole, List.nil_append] at run
    rcases run with ⟨clean, _⟩ | ends
    · exact clean
    · exact ends.2 d.completed

theorem Framed.sequence_ne (h : Framed entries frames) {i : Fin kCapacity}
    (isAdmitted : (entries i).admitted = true) : (entries i).sequence ≠ 0 := by
  intro zero
  rw [h.blank i zero] at isAdmitted
  cases isAdmitted

theorem Framed.rows_perm (h : Framed entries frames) (nodup : (frames.map fun f => f.cpu.sequence).Nodup) :
    ((List.ofFn entries).filter Entry.admitted).Perm (frames.map Frame.entry) := by
  have rows : ((List.ofFn entries).filter Entry.admitted).Nodup := by
    rw [List.ofFn_eq_map, List.filter_map]
    refine List.Nodup.map_on ?_ ((List.nodup_finRange _).filter _)
    intro i mem j _ same
    refine h.tidy.injective (h.sequence_ne (List.mem_filter.mp mem).2) ?_
    rw [same]
  have held : (frames.map Frame.entry).Nodup := by
    refine List.Nodup.of_map Entry.sequence ?_
    rw [List.map_map]
    convert nodup using 2
    funext f
    exact f.entry_sequence
  refine (List.perm_ext_iff_of_nodup rows held).mpr fun e => ?_
  rw [List.mem_filter, List.mem_ofFn, List.mem_map]
  constructor
  · rintro ⟨⟨i, rfl⟩, isAdmitted⟩
    obtain ⟨f, mem, isEntry⟩ := h.entry i (h.sequence_ne isAdmitted)
    exact ⟨f, mem, isEntry.symm⟩
  · rintro ⟨f, mem, rfl⟩
    obtain ⟨i, isEntry⟩ := h.frame f mem
    exact ⟨⟨i, isEntry⟩, f.entry_admitted⟩

theorem Once.frames_nodup (once : Once evs) :
    ((bookOf start evs).frames.map fun f => f.cpu.sequence).Nodup := by
  have sequences : (bookOf start evs).frames.map (fun f => f.cpu.sequence) =
      ((cpuParts evs).filter fun p => p.InWindow start).map Part.sequence := by
    rw [← (written_bookOf start once).frames, List.map_map]
    rfl
  rw [sequences]
  exact once.cpu.sublist (List.filter_sublist.map _)

theorem Framed.tally_eq (h : Framed entries frames) (cpu : Bool) :
    tally (List.ofFn entries) cpu = Tally.ofRows ((List.ofFn entries).filter Entry.admitted) cpu := by
  apply tally_eq_ofRows
  · rw [List.length_ofFn]
  · intro e mem isAdmitted
    obtain ⟨i, rfl⟩ := List.mem_ofFn.mp mem
    exact h.sequence_ne isAdmitted

theorem Frame.entry_good {f : Frame} (good : f.entry.valid cpu = true) : validValue (f.entry.ms cpu) = true := by
  have kept : ∀ p : Part, p.kept.1 = true → validValue p.kept.2 = true := by
    intro p isValid
    unfold Part.kept at isValid ⊢
    dsimp only at isValid ⊢
    rw [if_pos isValid]
    exact (Bool.and_eq_true_iff.mp isValid).2
  obtain ⟨p, _ | u⟩ := f
  · cases cpu with
    | true => exact kept p good
    | false => cases good
  · cases cpu with
    | true => exact kept p good
    | false => exact kept u good

theorem Book.values_good {b : Book} :
    ∀ value ∈ (Tally.ofRows (b.frames.map Frame.entry) cpu).values, validValue value = true := by
  intro value mem
  obtain ⟨e, isRow, rfl⟩ := List.mem_map.mp mem
  obtain ⟨isEntry, isValid⟩ := List.mem_filter.mp isRow
  obtain ⟨f, _, rfl⟩ := List.mem_map.mp isEntry
  exact Frame.entry_good (Bool.and_eq_true_iff.mp isValid).2

theorem Book.missing_eq (b : Book) : (b.distribution std false).missing = b.unanswered.length := by
  have missing : (b.distribution std false).missing =
      (b.frames.map Frame.entry).countP fun e => !e.seen false := by
    unfold Book.distribution Tally.distribution
    dsimp only
    split <;> rfl
  rw [missing, List.countP_map, Book.unanswered, ← List.countP_eq_length_filter]
  apply List.countP_congr
  intro f _
  change (!f.entry.gpuSeen) = true ↔ f.gpu.isNone = true
  rw [f.entry_gpuSeen]
  cases f.gpu <;> simp

/-- The report of a window counts every frame of the sample once. -/
structure NativeBenchmarkDistribution.Lawful (d : NativeBenchmarkDistribution) (c : NativeBenchmarkCollector)
    (cpu : Bool) (frames : Nat) : Prop where
  total : d.valid + d.invalid + d.missing = frames
  admitted : (List.ofFn c.entries).countP Entry.admitted = frames
  stored : d.stored = d.valid
  values : (storedValues c cpu).length = d.stored
  percentile : ∀ p ∈ [d.p50, d.p95, d.p99], p ∈ storedValues c cpu ↔ d.available = true

theorem Tally.distribution_counts (std : StdSort) (t : Tally) : (t.distribution std).valid = t.valid ∧
    (t.distribution std).invalid = t.invalid ∧ (t.distribution std).missing = t.missing ∧
    (t.distribution std).stored = t.values.length := by
  unfold Tally.distribution
  dsimp only
  split <;> exact ⟨rfl, rfl, rfl, rfl⟩

theorem Clean.lawful (std : StdSort) (h : Clean start evs c) (once : Once evs) (cpu : Bool) :
    (distribution std c.entries cpu).Lawful c cpu
      ((cpuParts evs).filter fun p => p.InWindow start).length := by
  have framed := h.keeps.framed
  have rows := framed.tally_eq cpu
  have frames : ((List.ofFn c.entries).filter Entry.admitted).length =
      ((cpuParts evs).filter fun p => p.InWindow start).length := by
    rw [(framed.rows_perm once.frames_nodup).length_eq, List.length_map, ← (written_bookOf start once).frames,
      List.length_map]
  obtain ⟨valid, invalid, missing, stored⟩ := (tally (List.ofFn c.entries) cpu).distribution_counts std
  unfold distribution
  refine ⟨?_, ?_, ?_, stored.symm, fun p mem => Tally.distribution_percentile std mem⟩
  · rw [valid, invalid, missing, rows, Tally.ofRows_total, frames]
  · rw [List.countP_eq_length_filter, frames]
  · rw [stored, valid, rows, Tally.ofRows_valid_eq]

theorem NativeBenchmarkDistribution.Same.symm {a b : NativeBenchmarkDistribution} (same : a.Same b) : b.Same a :=
  ⟨same.valid.symm, same.stored.symm, same.invalid.symm, same.missing.symm, same.available.symm,
    same.p50.symm, same.p95.symm, same.p99.symm⟩

theorem NativeBenchmarkDistribution.Same.trans {a b d : NativeBenchmarkDistribution} (first : a.Same b)
    (second : b.Same d) : a.Same d :=
  ⟨first.valid.trans second.valid, first.stored.trans second.stored, first.invalid.trans second.invalid,
    first.missing.trans second.missing, first.available.trans second.available, first.p50.trans second.p50,
    first.p95.trans second.p95, first.p99.trans second.p99⟩

theorem book_same_iff (std : StdSort) (once : Once evs) (once' : Once evs') (same : SameParts evs evs')
    (late : NoneEarly start evs) :
    (∀ cpu, ((bookOf start evs).distribution std cpu).Same ((bookOf start evs').distribution std cpu)) ↔
      NoneEarly start evs' := by
  have w := written_bookOf start once
  have w' := written_bookOf start once'
  constructor
  · intro equal
    by_contra lost
    have missing := (equal false).missing
    rw [Book.missing_eq, Book.missing_eq] at missing
    exact absurd missing (Nat.ne_of_lt (w.unanswered_lt w' once once' same late lost))
  · intro late' cpu
    have perm := w.frames_perm w' once once' same late late'
    exact Tally.distribution_same std (Tally.ofRows_alike (perm.map _)) Book.values_good

theorem cpuParts_settledOrder (evs : List Event) : cpuParts (settledOrder evs) = cpuParts evs := by
  unfold settledOrder
  generalize cpuParts evs = cs
  generalize gpuParts evs = gs
  simp [cpuParts, List.filterMap_append, List.filterMap_map, Function.comp_def, Event.cpu?]

theorem gpuParts_settledOrder (evs : List Event) : gpuParts (settledOrder evs) = gpuParts evs := by
  unfold settledOrder
  generalize cpuParts evs = cs
  generalize gpuParts evs = gs
  simp [gpuParts, List.filterMap_append, List.filterMap_map, Function.comp_def, Event.gpu?]

theorem sameParts_settledOrder (evs : List Event) : SameParts (settledOrder evs) evs where
  cpu := by rw [cpuParts_settledOrder]
  gpu := by rw [gpuParts_settledOrder]

theorem Once.settledOrder (once : Once evs) : Once (settledOrder evs) where
  cpu := by
    rw [cpuParts_settledOrder]
    exact once.cpu
  gpu := by
    rw [gpuParts_settledOrder]
    exact once.gpu

theorem noneEarly_settledOrder (start : Nat) (evs : List Event) : NoneEarly start (settledOrder evs) := by
  intro p u isFrame _ isResult _ _
  have frame := (sameParts_settledOrder evs).mem_cpu.mp isFrame
  have result := (sameParts_settledOrder evs).mem_gpu.mp isResult
  obtain ⟨before, after, split⟩ := List.append_of_mem (mem_gpuParts.mpr result)
  refine ⟨(cpuParts evs).map .cpu ++ before.map .gpu, after.map .gpu, ?_, ?_⟩
  · unfold EdvrPatch.Benchmark.settledOrder
    rw [split]
    simp
  · exact List.mem_append_left _ (List.mem_map_of_mem (mem_cpuParts.mpr frame))

theorem Delivery.distribution_same (std : StdSort) (d : Delivery warm calls) (cpu : Bool) :
    (distribution std (collectorAfter (warm ++ calls)).entries cpu).Same
      ((bookOf (openedAt calls) (eventsOf calls)).distribution std cpu) := by
  have framed := d.clean.2.keeps.framed
  refine (Tally.distribution_same std ?_ Book.values_good).symm
  rw [framed.tally_eq]
  exact Tally.ofRows_alike (framed.rows_perm d.once.frames_nodup).symm

theorem SameObservations.openedAt_eq (same : SameObservations calls calls') : openedAt calls = openedAt calls' := by
  have heads := congrArg List.head? same.clock
  rw [List.head?_map, List.head?_map] at heads
  unfold openedAt
  rw [heads]

structure NativeBenchmarkReport.Lawful (r : NativeBenchmarkReport) (c : NativeBenchmarkCollector)
    (frames : Nat) : Prop where
  complete : r.complete = true
  aborted : r.aborted = false
  overflow : r.overflow = false
  cpu : r.cpu.Lawful c true frames
  gpu : r.gpu.Lawful c false frames

theorem Delivery.report (std : StdSort) (d : Delivery warm calls) : ∃ r, reportOf std warm calls = some r ∧
    r.Lawful (collectorAfter (warm ++ calls)) (sampled calls).length ∧
    r.cpu.Same ((bookOf (openedAt calls) (eventsOf calls)).distribution std true) ∧
    r.gpu.Same ((bookOf (openedAt calls) (eventsOf calls)).distribution std false) := by
  obtain ⟨_, clean⟩ := d.clean
  have cpuLawful := clean.lawful std d.once true
  have gpuLawful := clean.lawful std d.once false
  have cpuSame := d.distribution_same std true
  have gpuSame := d.distribution_same std false
  unfold reportOf takeReport
  rw [if_neg (not_not.mpr d.complete)]
  dsimp only
  have undropped : ∀ x : NativeBenchmarkDistribution, { x with invalid := x.invalid + 0 } = x := fun _ => rfl
  rw [clean.droppedCpu, clean.droppedGpu, d.completed, d.fits, undropped, undropped]
  generalize distribution std (collectorAfter (warm ++ calls)).entries true = cpu at cpuLawful cpuSame ⊢
  generalize distribution std (collectorAfter (warm ++ calls)).entries false = gpu at gpuLawful gpuSame ⊢
  exact ⟨_, rfl, ⟨rfl, rfl, rfl, cpuLawful, gpuLawful⟩, cpuSame, gpuSame⟩

/-- A report is that of the settled order, and so of the observations alone, if and only if
no result is lost. Every other order that loses none has the same distributions, and no
order that loses one has. -/
theorem report_order_iff (std : StdSort) (d : Delivery warm calls) (d' : Delivery warm calls')
    (same : SameObservations calls calls') :
    ∃ r r', reportOf std warm calls = some r ∧ reportOf std warm calls' = some r' ∧
      r.Lawful (collectorAfter (warm ++ calls)) (sampled calls).length ∧
      r'.Lawful (collectorAfter (warm ++ calls')) (sampled calls').length ∧
      (r.Settled std calls ↔ LosesNone calls) ∧ (LosesNone calls → (r.Same r' ↔ LosesNone calls')) := by
  obtain ⟨r, report, lawful, cpu, gpu⟩ := d.report std
  obtain ⟨r', report', lawful', cpu', gpu'⟩ := d'.report std
  refine ⟨r, r', report, report', lawful, lawful', ?_, ?_⟩
  · have books := book_same_iff std d.once.settledOrder d.once (sameParts_settledOrder _)
      (noneEarly_settledOrder (openedAt calls) _)
    rw [LosesNone, ← books, Bool.forall_bool]
    constructor
    · exact fun ⟨isCpu, isGpu⟩ => ⟨isGpu.symm.trans gpu, isCpu.symm.trans cpu⟩
    · exact fun ⟨isGpu, isCpu⟩ => ⟨cpu.trans isCpu.symm, gpu.trans isGpu.symm⟩
  · intro late
    have books := book_same_iff std d.once d'.once same.parts late
    rw [← same.openedAt_eq] at cpu' gpu'
    rw [LosesNone, ← same.openedAt_eq, ← books, Bool.forall_bool]
    constructor
    · exact fun ⟨isCpu, isGpu⟩ => ⟨gpu.symm.trans (isGpu.trans gpu'), cpu.symm.trans (isCpu.trans cpu')⟩
    · exact fun ⟨isGpu, isCpu⟩ => ⟨cpu.trans (isCpu.trans cpu'.symm), gpu.trans (isGpu.trans gpu'.symm)⟩

end

/-! A result that is a millisecond older than the sample, and its frame. -/

def earlyResult : NativeBenchmarkObservation :=
  { scope := 1, gpuSequence := 1, gpuAtMs := 1999, gpuMs := 0x4014000000000000, gpuValid := true }

def itsFrame : NativeBenchmarkObservation :=
  { scope := 1, cpuSequence := 1, cpuAtMs := 2000, cpuMs := 0x4014000000000000, cpuValid := true }

def warmCalls : List BenchmarkTick := [⟨{ scope := 1 }, 0⟩]

def frameFirst : List BenchmarkTick := [⟨itsFrame, 2000⟩, ⟨earlyResult, 2001⟩, ⟨{ scope := 1 }, 34000⟩]

def resultFirst : List BenchmarkTick := [⟨earlyResult, 2000⟩, ⟨itsFrame, 2001⟩, ⟨{ scope := 1 }, 34000⟩]

set_option maxRecDepth 100000 in
theorem delivery_frameFirst : Delivery warmCalls frameFirst where
  unwrapped := by decide
  warming := by decide +kernel
  opens := by decide +kernel
  takes := by decide +kernel
  once := ⟨by decide, by decide⟩
  complete := by decide +kernel
  completed := by decide +kernel
  fits := by decide +kernel

set_option maxRecDepth 100000 in
theorem delivery_resultFirst : Delivery warmCalls resultFirst where
  unwrapped := by decide
  warming := by decide +kernel
  opens := by decide +kernel
  takes := by decide +kernel
  once := ⟨by decide, by decide⟩
  complete := by decide +kernel
  completed := by decide +kernel
  fits := by decide +kernel

theorem sameObservations_either : SameObservations frameFirst resultFirst where
  clock := rfl
  parts := ⟨List.Perm.refl _, List.Perm.refl _⟩

theorem report_order_iff_either : ∃ r r', reportOf mergeSort warmCalls frameFirst = some r ∧
    reportOf mergeSort warmCalls resultFirst = some r' ∧
    r.Lawful (collectorAfter (warmCalls ++ frameFirst)) (sampled frameFirst).length ∧
    r'.Lawful (collectorAfter (warmCalls ++ resultFirst)) (sampled resultFirst).length ∧
    (r.Settled mergeSort frameFirst ↔ LosesNone frameFirst) ∧
    (LosesNone frameFirst → (r.Same r' ↔ LosesNone resultFirst)) :=
  report_order_iff mergeSort delivery_frameFirst delivery_resultFirst sameObservations_either

/-- Two orders of the same two observations, of which only one finds the result. -/
theorem report_order_fails : ¬∀ std warm calls calls', Delivery warm calls → Delivery warm calls' →
    SameObservations calls calls' → ∃ r r', reportOf std warm calls = some r ∧
      reportOf std warm calls' = some r' ∧ r.Same r' := by
  intro all
  obtain ⟨r, r', report, report', same⟩ :=
    all mergeSort _ _ _ delivery_frameFirst delivery_resultFirst sameObservations_either
  obtain ⟨q, isReport, _, _, gpu⟩ := delivery_frameFirst.report mergeSort
  obtain ⟨q', isReport', _, _, gpu'⟩ := delivery_resultFirst.report mergeSort
  rw [report] at isReport
  rw [report'] at isReport'
  cases isReport
  cases isReport'
  have missing := (gpu.symm.trans (same.2.trans gpu')).missing
  rw [Book.missing_eq, Book.missing_eq] at missing
  exact absurd missing (by decide)

end EdvrPatch.Benchmark
