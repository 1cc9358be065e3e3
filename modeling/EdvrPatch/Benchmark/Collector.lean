import EdvrPatch.Lib.Probing

/-! The benchmark window of `native_benchmark_collector.cpp`: a warm-up, a sample of
thirty seconds, and a drain for the results that come late. Frames are kept in one
table and GPU results without a frame in another, and neither is ever enlarged. -/
namespace EdvrPatch.Benchmark

open Lib

def kWarmupMs : Nat := 2000
def kSampleMs : Nat := 30000
def kDrainMs : Nat := 2000
def kCapacity : Nat := 16384
def kOrphanCapacity : Nat := 256

structure NativeBenchmarkObservation where
  scope : Nat := 0
  cpuSequence : Nat := 0
  cpuAtMs : Nat := 0
  cpuMs : UInt64 := 0
  cpuValid : Bool := false
  gpuSequence : Nat := 0
  gpuAtMs : Nat := 0
  gpuMs : UInt64 := 0
  gpuValid : Bool := false
  deriving DecidableEq, Repr

inductive AbortReason where
  | completed | scopeChanged | overflow | clockReversed | transportLoss
  deriving DecidableEq, Repr

inductive Phase where
  | idle | warmup | sampling | drain | complete
  deriving DecidableEq, Repr

/-- The slots whose sequence is not zero are the ones in use. -/
structure Entry where
  sequence : Nat := 0
  atMs : Nat := 0
  admitted : Bool := false
  cpuSeen : Bool := false
  gpuSeen : Bool := false
  cpuValid : Bool := false
  gpuValid : Bool := false
  cpuMs : UInt64 := 0
  gpuMs : UInt64 := 0
  deriving DecidableEq, Repr

structure OrphanGpu where
  sequence : Nat := 0
  atMs : Nat := 0
  valid : Bool := false
  ms : UInt64 := 0
  deriving DecidableEq, Repr

structure NativeBenchmarkCollector where
  scope : Nat := 0
  warmupStartMs : Nat := 0
  sampleStartMs : Nat := 0
  sampleEndMs : Nat := 0
  drainEndMs : Nat := 0
  lastNowMs : Nat := 0
  firstSequence : Nat := 0
  phase : Phase := .idle
  abortReason : AbortReason := .completed
  overflow : Bool := false
  transportLost : Bool := false
  droppedCpu : Nat := 0
  droppedGpu : Nat := 0
  entries : Fin kCapacity → Entry := fun _ => {}
  orphans : Fin kOrphanCapacity → OrphanGpu := fun _ => {}

/-- Neither sign is set nor is it above 600000; a negative zero is let through. -/
def validValue (value : UInt64) : Bool :=
  value ≤ 0x41224F8000000000 || value == 0x8000000000000000

def elapsed (now before duration : Nat) : Bool :=
  before ≤ now && duration ≤ now - before

/-- The slots of a table from the one that a sequence hashes to, once around. -/
def probes (n : Nat) [NeZero n] (sequence : Nat) : List (Fin n) :=
  (List.range n).map fun probe => Fin.ofNat n (sequence % n + probe)

instance : NeZero kCapacity := ⟨by decide⟩
instance : NeZero kOrphanCapacity := ⟨by decide⟩

namespace NativeBenchmarkCollector

def start (scope nowMs : Nat) : NativeBenchmarkCollector :=
  { scope := scope, warmupStartMs := nowMs, phase := .warmup }

def startSampling (c : NativeBenchmarkCollector) (nowMs : Nat) : NativeBenchmarkCollector :=
  { c with
    sampleStartMs := nowMs, sampleEndMs := nowMs + kSampleMs
    drainEndMs := nowMs + kSampleMs + kDrainMs, lastNowMs := nowMs
    firstSequence := 1, phase := .sampling, abortReason := .completed, overflow := false
    droppedCpu := 0, droppedGpu := 0, entries := fun _ => {}, orphans := fun _ => {} }

def setEntry (c : NativeBenchmarkCollector) (i : Fin kCapacity) (e : Entry) :
    NativeBenchmarkCollector :=
  { c with entries := Function.update c.entries i e }

def setOrphan (c : NativeBenchmarkCollector) (i : Fin kOrphanCapacity) (o : OrphanGpu) :
    NativeBenchmarkCollector :=
  { c with orphans := Function.update c.orphans i o }

def find (c : NativeBenchmarkCollector) (sequence : Nat) (create : Bool) :
    Option (Fin kCapacity) × NativeBenchmarkCollector :=
  if sequence = 0 then (none, c)
  else
    match scan (fun i => (c.entries i).sequence) 0 sequence (probes kCapacity sequence) with
    | some i => (some i, c)
    | none =>
      match (probes kCapacity sequence).find? fun i => (c.entries i).sequence = 0 with
      | some i => if create then (some i, c.setEntry i { sequence := sequence }) else (none, c)
      | none => (none, { c with overflow := true })

def findOrphan (c : NativeBenchmarkCollector) (sequence : Nat) (create : Bool) :
    Option (Fin kOrphanCapacity) × NativeBenchmarkCollector :=
  if sequence = 0 then (none, c)
  else
    match (probes kOrphanCapacity sequence).find? fun i => (c.orphans i).sequence = sequence with
    | some i => (some i, c)
    | none =>
      if create then
        match (probes kOrphanCapacity sequence).find? fun i => (c.orphans i).sequence = 0 with
        | some i => (some i, c.setOrphan i { sequence := sequence })
        | none => (none, { c with overflow := true })
      else (none, c)

def addCpu (c : NativeBenchmarkCollector) (sample : NativeBenchmarkObservation) :
    NativeBenchmarkCollector :=
  if sample.cpuSequence = 0 ∨ sample.cpuSequence < c.firstSequence ∨
      sample.cpuAtMs < c.sampleStartMs ∨ c.sampleEndMs ≤ sample.cpuAtMs then c
  else
    match c.find sample.cpuSequence true with
    | (none, c) => c
    | (some i, c) =>
      if (c.entries i).cpuSeen then c
      else
        let valid := sample.cpuValid && validValue sample.cpuMs
        let c := c.setEntry i { c.entries i with
          cpuSeen := true, atMs := sample.cpuAtMs, cpuValid := valid
          cpuMs := if valid then sample.cpuMs else 0, admitted := true }
        match c.findOrphan sample.cpuSequence false with
        | (none, c) => c
        | (some j, c) =>
          let orphan := c.orphans j
          (c.setEntry i { c.entries i with
            gpuSeen := true, gpuValid := orphan.valid
            gpuMs := if orphan.valid then orphan.ms else 0 }).setOrphan j {}

def addGpu (c : NativeBenchmarkCollector) (sample : NativeBenchmarkObservation) :
    NativeBenchmarkCollector :=
  if sample.gpuSequence = 0 ∨ sample.gpuSequence < c.firstSequence ∨
      c.drainEndMs < sample.gpuAtMs then c
  else
    let valid := sample.gpuValid && validValue sample.gpuMs
    let ms := if valid then sample.gpuMs else 0
    match c.find sample.gpuSequence false with
    | (none, c) =>
      if sample.gpuAtMs < c.sampleStartMs ∨ c.drainEndMs < sample.gpuAtMs then c
      else
        match c.findOrphan sample.gpuSequence true with
        | (none, c) => c
        | (some j, c) =>
          if (c.orphans j).atMs ≠ 0 then c
          else c.setOrphan j { c.orphans j with atMs := sample.gpuAtMs, valid := valid, ms := ms }
    | (some i, c) =>
      let entry := c.entries i
      if ¬entry.admitted ∨ entry.gpuSeen then c
      else
        c.setEntry i { entry with
          gpuSeen := true, atMs := if entry.atMs = 0 then sample.gpuAtMs else entry.atMs
          gpuValid := valid, gpuMs := ms }

def finish (c : NativeBenchmarkCollector) (nowMs : Nat) (reason : AbortReason) :
    NativeBenchmarkCollector :=
  let reason := if reason = .completed ∧ c.transportLost then .transportLoss else reason
  { c with
    abortReason := reason, overflow := c.overflow || reason == .overflow, lastNowMs := nowMs
    phase := .complete }

def observeNone (c : NativeBenchmarkCollector) (nowMs : Nat) : NativeBenchmarkCollector :=
  if c.scope = 0 then c
  else if nowMs < c.lastNowMs then
    if c.phase = .sampling ∨ c.phase = .drain then c.finish nowMs .clockReversed else c
  else
    let c := { c with lastNowMs := nowMs }
    let c := if c.phase = .warmup ∧ elapsed nowMs c.warmupStartMs kWarmupMs then c.startSampling nowMs else c
    let c := if c.phase = .sampling ∧ elapsed nowMs c.sampleEndMs 0 then { c with phase := .drain } else c
    if c.phase = .drain ∧ elapsed nowMs c.drainEndMs 0 then c.finish nowMs .completed else c

def takeIn (c : NativeBenchmarkCollector) (sample : NativeBenchmarkObservation) (nowMs : Nat) :
    NativeBenchmarkCollector :=
  let c := (c.addCpu sample).addGpu sample
  if c.overflow then c.finish nowMs .overflow
  else
    let c := if c.phase = .sampling ∧ elapsed nowMs c.sampleEndMs 0 then { c with phase := .drain } else c
    if c.phase = .drain ∧ sample.cpuSequence = 0 ∧ sample.gpuSequence = 0 ∧
        elapsed nowMs c.drainEndMs 0 then c.finish nowMs .completed
    else c

def observe (c : NativeBenchmarkCollector) (sample : NativeBenchmarkObservation) (nowMs : Nat) :
    NativeBenchmarkCollector :=
  if c.phase = .complete then c
  else if sample.scope = 0 then c.observeNone nowMs
  else if c.scope ≠ sample.scope ∧ (c.phase = .sampling ∨ c.phase = .drain) then
    c.finish nowMs .scopeChanged
  else
    let c := if c.scope ≠ sample.scope then start sample.scope nowMs else c
    if nowMs < c.lastNowMs then
      if c.phase = .sampling ∨ c.phase = .drain then c.finish nowMs .clockReversed else c
    else
      let c := { c with lastNowMs := nowMs }
      if c.phase = .warmup then
        if elapsed nowMs c.warmupStartMs kWarmupMs then (c.startSampling nowMs).takeIn sample nowMs else c
      else if c.phase = .sampling ∨ c.phase = .drain then c.takeIn sample nowMs
      else c

end NativeBenchmarkCollector

structure BenchmarkTick where
  sample : NativeBenchmarkObservation
  nowMs : Nat

def collectorAfter (feed : List BenchmarkTick) : NativeBenchmarkCollector :=
  feed.foldl (fun c tick => c.observe tick.sample tick.nowMs) {}

end EdvrPatch.Benchmark
