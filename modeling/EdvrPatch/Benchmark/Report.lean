import EdvrPatch.Benchmark.Collector

/-! What is reported of a window that is complete: for either stream the number of frames
with a value, with a bad value and with none, and three percentiles of the values. -/
namespace EdvrPatch.Benchmark

/-- The two zeros are equal as doubles. Other than that the bit patterns of valid values
are in the order of the values. -/
def ordinal (value : UInt64) : UInt64 :=
  if value = 0x8000000000000000 then 0 else value

/-- Which of two equal values comes first is not known of `std::sort`. -/
structure StdSort where
  sort : List UInt64 → List UInt64
  perm : ∀ values, (sort values).Perm values
  sorted : ∀ values, (∀ value ∈ values, validValue value = true) →
    (sort values).Pairwise fun a b => ordinal a ≤ ordinal b

def mergeSort : StdSort where
  sort values := values.mergeSort fun a b => ordinal a ≤ ordinal b
  perm values := List.mergeSort_perm values _
  sorted values _ := by
    have sorted := @List.pairwise_mergeSort _ (fun a b => decide (ordinal a ≤ ordinal b))
      (by simpa using fun a b c => UInt64.le_trans)
      (by simpa using fun a b => UInt64.le_total (ordinal a) (ordinal b)) values
    exact sorted.imp of_decide_eq_true

def percentileSorted (values : List UInt64) (count percent : Nat) : UInt64 :=
  if count = 0 then 0
  else
    let rank := (count * percent + 99) / 100
    values.getD (if rank ≠ 0 then rank - 1 else 0) 0

structure NativeBenchmarkDistribution where
  valid : Nat := 0
  stored : Nat := 0
  invalid : Nat := 0
  missing : Nat := 0
  available : Bool := false
  p50 : UInt64 := 0
  p95 : UInt64 := 0
  p99 : UInt64 := 0
  deriving DecidableEq, Repr

structure Tally where
  valid : Nat := 0
  invalid : Nat := 0
  missing : Nat := 0
  values : List UInt64 := []
  deriving DecidableEq, Repr

namespace Entry

def seen (entry : Entry) (cpu : Bool) : Bool := if cpu then entry.cpuSeen else entry.gpuSeen

def valid (entry : Entry) (cpu : Bool) : Bool := if cpu then entry.cpuValid else entry.gpuValid

def ms (entry : Entry) (cpu : Bool) : UInt64 := if cpu then entry.cpuMs else entry.gpuMs

end Entry

def Tally.add (cpu : Bool) (t : Tally) (entry : Entry) : Tally :=
  if ¬entry.admitted then t
  else
    let t :=
      if entry.seen cpu then
        if entry.valid cpu then
          { t with
            valid := t.valid + 1
            values := if t.values.length < kCapacity then t.values ++ [entry.ms cpu] else t.values }
        else { t with invalid := t.invalid + 1 }
      else t
    if entry.sequence ≠ 0 ∧ ¬entry.seen cpu then { t with missing := t.missing + 1 } else t

def tally (entries : List Entry) (cpu : Bool) : Tally := entries.foldl (Tally.add cpu) {}

def Tally.ofRows (rows : List Entry) (cpu : Bool) : Tally where
  valid := rows.countP fun e => e.seen cpu && e.valid cpu
  invalid := rows.countP fun e => e.seen cpu && !e.valid cpu
  missing := rows.countP fun e => !e.seen cpu
  values := (rows.filter fun e => e.seen cpu && e.valid cpu).map fun e => e.ms cpu

def Tally.distribution (std : StdSort) (t : Tally) : NativeBenchmarkDistribution :=
  let count := t.values.length
  let result :=
    { valid := t.valid, stored := count, invalid := t.invalid, missing := t.missing
      available := count != 0 : NativeBenchmarkDistribution }
  if count ≠ 0 then
    let values := std.sort t.values
    { result with
      p50 := percentileSorted values count 50
      p95 := percentileSorted values count 95
      p99 := percentileSorted values count 99 }
  else result

def distribution (std : StdSort) (entries : Fin kCapacity → Entry) (cpu : Bool) :
    NativeBenchmarkDistribution :=
  (tally (List.ofFn entries) cpu).distribution std

structure NativeBenchmarkReport where
  scope : Nat
  drainMs : Nat
  startedAtMs : Nat
  sampleEndedAtMs : Nat
  endedAtMs : Nat
  abortReason : AbortReason
  complete : Bool
  aborted : Bool
  overflow : Bool
  cpu : NativeBenchmarkDistribution
  gpu : NativeBenchmarkDistribution
  deriving DecidableEq, Repr

def NativeBenchmarkCollector.takeReport (std : StdSort) (c : NativeBenchmarkCollector) :
    Option NativeBenchmarkReport × NativeBenchmarkCollector :=
  if c.phase ≠ .complete then (none, c)
  else
    let sampleEndedAtMs := max c.sampleStartMs (min c.sampleEndMs c.lastNowMs)
    let cpu := distribution std c.entries true
    let gpu := distribution std c.entries false
    (some {
      scope := c.scope, startedAtMs := c.sampleStartMs, sampleEndedAtMs := sampleEndedAtMs
      drainMs := if c.lastNowMs > sampleEndedAtMs then c.lastNowMs - sampleEndedAtMs else 0
      endedAtMs := c.lastNowMs, abortReason := c.abortReason, complete := true
      aborted := c.abortReason ≠ .completed, overflow := c.overflow
      cpu := { cpu with invalid := cpu.invalid + c.droppedCpu }
      gpu := { gpu with invalid := gpu.invalid + c.droppedGpu } }, {})

section

variable {entries rows rows' : List Entry} {cpu : Bool}

theorem Tally.ofRows_valid_eq (rows : List Entry) (cpu : Bool) :
    (ofRows rows cpu).valid = (ofRows rows cpu).values.length := by
  simp [ofRows, List.countP_eq_length_filter]

theorem tally_eq_ofRows (short : entries.length ≤ kCapacity)
    (held : ∀ e ∈ entries, e.admitted = true → e.sequence ≠ 0) :
    tally entries cpu = Tally.ofRows (entries.filter Entry.admitted) cpu := by
  induction entries using List.reverseRecOn with
  | nil => rfl
  | append_singleton entries e ih =>
    rw [List.length_append, List.length_singleton] at short
    have before := ih (by omega) fun e mem => held e (List.mem_append_left _ mem)
    have room : (Tally.ofRows (entries.filter Entry.admitted) cpu).values.length < kCapacity := by
      calc
        _ ≤ entries.length := by
          rw [← Tally.ofRows_valid_eq]
          exact Nat.le_trans List.countP_le_length (List.length_filter_le _ _)
        _ < kCapacity := by omega
    have step : tally (entries ++ [e]) cpu =
        (Tally.ofRows (entries.filter Entry.admitted) cpu).add cpu e := by
      rw [← before, tally, List.foldl_append]
      rfl
    have isHeld := held e (List.mem_append_right _ (List.mem_singleton_self e))
    rw [step, List.filter_append]
    unfold Tally.add
    rw [if_pos room]
    cases isAdmitted : e.admitted with
    | false => simp [isAdmitted]
    | true =>
      cases isSeen : e.seen cpu <;> cases isValid : e.valid cpu <;>
        simp [Tally.ofRows, isAdmitted, isSeen, isValid, isHeld]

theorem Tally.ofRows_total (rows : List Entry) (cpu : Bool) :
    (ofRows rows cpu).valid + (ofRows rows cpu).invalid + (ofRows rows cpu).missing = rows.length := by
  induction rows with
  | nil => rfl
  | cons e rows ih =>
    simp only [ofRows, List.countP_cons, List.length_cons] at ih ⊢
    cases e.seen cpu <;> cases e.valid cpu <;> simp <;> omega

structure Tally.Alike (a b : Tally) : Prop where
  valid : a.valid = b.valid
  invalid : a.invalid = b.invalid
  missing : a.missing = b.missing
  values : a.values.Perm b.values

theorem Tally.ofRows_alike (perm : rows.Perm rows') : (ofRows rows cpu).Alike (ofRows rows' cpu) where
  valid := perm.countP_eq _
  invalid := perm.countP_eq _
  missing := perm.countP_eq _
  values := (perm.filter _).map _

end

structure NativeBenchmarkDistribution.Same (a b : NativeBenchmarkDistribution) : Prop where
  valid : a.valid = b.valid
  stored : a.stored = b.stored
  invalid : a.invalid = b.invalid
  missing : a.missing = b.missing
  available : a.available = b.available
  p50 : ordinal a.p50 = ordinal b.p50
  p95 : ordinal a.p95 = ordinal b.p95
  p99 : ordinal a.p99 = ordinal b.p99

theorem percentileSorted_mem {values : List UInt64} {percent : Nat} (some : values ≠ [])
    (within : percent ≤ 100) : percentileSorted values values.length percent ∈ values := by
  have pos : 0 < values.length := List.length_pos_iff.mpr some
  have scaled : values.length * percent ≤ values.length * 100 := Nat.mul_le_mul_left _ within
  unfold percentileSorted
  rw [if_neg (Nat.ne_of_gt pos)]
  have inside : (if (values.length * percent + 99) / 100 ≠ 0
      then (values.length * percent + 99) / 100 - 1 else 0) < values.length := by
    split <;> omega
  rw [List.getD_eq_getElem _ _ inside]
  exact List.getElem_mem inside

theorem percentileSorted_congr {values values' : List UInt64}
    (same : values.map ordinal = values'.map ordinal) (count percent : Nat) :
    ordinal (percentileSorted values count percent) = ordinal (percentileSorted values' count percent) := by
  unfold percentileSorted
  split
  · rfl
  rw [← List.getD_map values 0 ordinal, ← List.getD_map values' 0 ordinal, same]

namespace StdSort

variable (std : StdSort) {values values' : List UInt64}

theorem sort_congr (perm : values.Perm values') (good : ∀ value ∈ values, validValue value = true) :
    (std.sort values).map ordinal = (std.sort values').map ordinal := by
  have mapped : ((std.sort values).map ordinal).Perm ((std.sort values').map ordinal) :=
    (((std.perm values).trans perm).trans (std.perm values').symm).map ordinal
  have first := List.pairwise_map.mpr (std.sorted values good)
  have second := List.pairwise_map.mpr
    (std.sorted values' fun value mem => good value (perm.mem_iff.mpr mem))
  exact mapped.eq_of_pairwise (fun a b _ _ less more => UInt64.le_antisymm less more) first second

end StdSort

namespace Tally

variable (std : StdSort) {t t' : Tally}

theorem distribution_same (alike : t.Alike t') (good : ∀ value ∈ t.values, validValue value = true) :
    (t.distribution std).Same (t'.distribution std) := by
  have sorted := std.sort_congr alike.values good
  have count := alike.values.length_eq
  unfold distribution
  dsimp only
  rw [← count]
  split
  · exact ⟨alike.valid, rfl, alike.invalid, alike.missing, rfl, percentileSorted_congr sorted _ _,
      percentileSorted_congr sorted _ _, percentileSorted_congr sorted _ _⟩
  · exact ⟨alike.valid, rfl, alike.invalid, alike.missing, rfl, rfl, rfl, rfl⟩

theorem distribution_percentile {p : UInt64} (mem : p ∈ [(t.distribution std).p50,
    (t.distribution std).p95, (t.distribution std).p99]) :
    p ∈ t.values ↔ (t.distribution std).available = true := by
  by_cases empty : t.values = []
  · unfold distribution
    simp [empty]
  · have count : t.values.length = (std.sort t.values).length := (std.perm t.values).length_eq.symm
    have some : std.sort t.values ≠ [] := by
      intro none
      rw [none] at count
      exact empty (List.eq_nil_of_length_eq_zero count)
    have nonzero : t.values.length ≠ 0 := fun zero => empty (List.eq_nil_of_length_eq_zero zero)
    have isAvailable : (t.distribution std).available = true := by
      unfold distribution
      rw [if_pos nonzero]
      simpa using empty
    have inside : ∀ percent ≤ 100,
        percentileSorted (std.sort t.values) t.values.length percent ∈ t.values := by
      intro percent within
      rw [count]
      exact (std.perm t.values).mem_iff.mp (percentileSorted_mem some within)
    refine iff_of_true ?_ isAvailable
    unfold distribution at mem
    rw [if_pos nonzero] at mem
    simp only [List.mem_cons, List.not_mem_nil, or_false] at mem
    rcases mem with rfl | rfl | rfl
    · exact inside 50 (by decide)
    · exact inside 95 (by decide)
    · exact inside 99 (by decide)

end Tally

end EdvrPatch.Benchmark
