import EdvrPatch.Benchmark.Collector

/-! The feeds that the window is sized for, and what is expected of it: no more than 240
frames in any second, each with a result within the drain time. -/
namespace EdvrPatch.Benchmark

open Lib

def sampledFrom : List BenchmarkTick → List BenchmarkTick
  | [] => []
  | first :: rest => rest.dropWhile fun t => t.nowMs < first.nowMs + kWarmupMs

variable (feed : List BenchmarkTick)

def sampleStart : Nat := ((sampledFrom feed).head?.map BenchmarkTick.nowMs).getD 0

def sampleEnd : Nat := sampleStart feed + kSampleMs

def drainEnd : Nat := sampleEnd feed + kDrainMs

def Closing (t : BenchmarkTick) : Prop :=
  t.sample.cpuSequence = 0 ∧ t.sample.gpuSequence = 0 ∧ drainEnd feed ≤ t.nowMs

instance (t : BenchmarkTick) : Decidable (Closing feed t) := by
  unfold Closing
  infer_instance

def window : List BenchmarkTick := (sampledFrom feed).takeWhile fun t => ¬Closing feed t

def InSample (t : BenchmarkTick) : Prop :=
  t.sample.cpuSequence ≠ 0 ∧ sampleStart feed ≤ t.sample.cpuAtMs ∧ t.sample.cpuAtMs < sampleEnd feed

instance (t : BenchmarkTick) : Decidable (InSample feed t) := by
  unfold InSample
  infer_instance

/-- A result of the sample or the drain whose frame was published before or after the
sample. -/
def Stray (t : BenchmarkTick) : Prop :=
  t.sample.gpuSequence ≠ 0 ∧ sampleStart feed ≤ t.sample.gpuAtMs ∧
    t.sample.gpuAtMs ≤ drainEnd feed ∧
    ∀ u ∈ feed, InSample feed u → u.sample.cpuSequence ≠ t.sample.gpuSequence

instance (t : BenchmarkTick) : Decidable (Stray feed t) := by
  unfold Stray
  infer_instance

def strays : Nat := ((window feed).filter fun t => Stray feed t).length

/-- One scope, a clock that does not go back and is short of its end by a window, at most 240
frames in any second, for each frame a CPU observation and at the same time or later a GPU
observation within the drain time, and idle calls until the drain is over. -/
structure SteadyFeed (scope : Nat) : Prop where
  named : scope ≠ 0
  scope : ∀ t ∈ feed, t.sample.scope = scope
  unwrapped : ∀ t ∈ feed, t.nowMs + kSampleMs + kDrainMs < 2 ^ 64
  clock : feed.Pairwise fun a b => a.nowMs ≤ b.nowMs
  cpuOnce : feed.Pairwise fun a b => a.sample.cpuSequence ≠ 0 → a.sample.cpuSequence ≠ b.sample.cpuSequence
  gpuOnce : feed.Pairwise fun a b => a.sample.gpuSequence ≠ 0 → a.sample.gpuSequence ≠ b.sample.gpuSequence
  rate : ∀ t₀, (feed.filter fun t => t.sample.cpuSequence ≠ 0 ∧ t₀ ≤ t.sample.cpuAtMs ∧
    t.sample.cpuAtMs < t₀ + 1000).length ≤ 240
  published : ∀ t ∈ feed, t.sample.cpuSequence ≠ 0 → t.sample.cpuAtMs ≤ t.nowMs
  completed : ∀ t ∈ feed, t.sample.gpuSequence ≠ 0 → t.sample.gpuAtMs ≤ t.nowMs
  paired : ∀ t ∈ feed, t.sample.cpuSequence ≠ 0 → ∃ u ∈ feed, u.sample.gpuSequence = t.sample.cpuSequence
  later : ∀ before t after, feed = before ++ t :: after → t.sample.gpuSequence ≠ 0 →
    ∃ u ∈ before ++ [t], u.sample.cpuSequence = t.sample.gpuSequence ∧
      t.nowMs ≤ u.sample.cpuAtMs + kDrainMs
  idles : ∃ t ∈ sampledFrom feed, Closing feed t

def NativeBenchmarkObservation.gpuKept (sample : NativeBenchmarkObservation) : Bool × UInt64 :=
  let valid := sample.gpuValid && validValue sample.gpuMs
  (valid, if valid then sample.gpuMs else 0)

def Entry.Holds (e : Entry) (sample : NativeBenchmarkObservation) : Prop :=
  e.gpuSeen = true ∧ (e.gpuValid, e.gpuMs) = sample.gpuKept

/-- The window finishes without an overflow, and has every frame of the sample with its
result. -/
structure Served : Prop where
  complete : (collectorAfter feed).phase = .complete
  reason : (collectorAfter feed).abortReason = .completed
  overflow : (collectorAfter feed).overflow = false
  admitted : ∀ t ∈ feed, InSample feed t → ∃ u ∈ feed, u.sample.gpuSequence = t.sample.cpuSequence ∧
    ∃ i, ((collectorAfter feed).entries i).sequence = t.sample.cpuSequence ∧
      ((collectorAfter feed).entries i).admitted = true ∧
      ((collectorAfter feed).entries i).Holds u.sample

end EdvrPatch.Benchmark
