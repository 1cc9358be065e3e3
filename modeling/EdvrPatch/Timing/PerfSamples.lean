import EdvrPatch.Timing.PerfHistory

/-! What the streams of the performance history hold. Every stream keeps one law: its samples are of
the current session, in the order of their sequences, and nothing it has refused comes to it again.
-/
namespace EdvrPatch.Timing

structure PerfObservation where
  native : Bool
  t : TimedSnapshot
  g : GpuFrameSnapshot
  now : Nat

namespace PerfObservation

def Live (o : PerfObservation) : Prop :=
  o.native ∧ o.t.active ∧ o.t.generation ≠ 0 ∧ o.t.firstSequence ≠ 0

def sequence (o : PerfObservation) : PerfName → Nat
  | .cpu | .applicationCpu => o.t.cpu.sequence
  | .producer | .applicationGpu => o.g.result.sequence
  | .device => o.t.deviceGpu.sequence

def entry (math : PerfMath) (o : PerfObservation) : PerfName → PerfEntry
  | .cpu => ⟨o.t.capturedAtMs, NativePerfHistory.submitMs math o.t, o.t.waitMs⟩
  | .applicationCpu => ⟨o.t.capturedAtMs, (cpuFigure o.t).ms, 0⟩
  | .producer | .applicationGpu => ⟨gpuAt o.g o.now, o.g.outerMs, 0⟩
  | .device =>
    ⟨o.t.deviceGpu.completedAtMs, NativePerfHistory.copyMs math o.t,
      NativePerfHistory.composeMs math o.t⟩

/-- There is a result of the sequence for the stream, valid or not. -/
def Offers (o : PerfObservation) (name : PerfName) (sequence : Nat) : Prop :=
  match name with
  | .cpu | .applicationCpu =>
    o.t.haveCpu ∧ sequence = o.t.cpu.sequence ∨
      o.t.invalid ∧ (sequence = o.t.sequence ∨ sequence = o.t.cpu.sequence)
  | .producer | .applicationGpu => o.g.haveResult ∧ sequence = o.g.result.sequence
  | .device => o.t.haveDeviceGpu ∧ sequence = o.t.deviceGpu.sequence

def Pending (o : PerfObservation) (name : PerfName) : Prop :=
  name = .device ∧ o.t.deviceGpu.status = .pending

end PerfObservation

inductive Told where
  | refused (consumed : Nat)
  | given (restart : Bool) (sequence : Nat) (entry : PerfEntry)

def PerfStream.hear (s : PerfStream) : Told → PerfStream
  | .refused consumed => s.reset consumed
  | .given restart sequence entry =>
    if sequence ≤ s.floor then s else (if restart then s.reset 0 else s).add sequence entry

namespace NativePerfHistory

variable (math : PerfMath) (h : NativePerfHistory) (o : PerfObservation)

def perform : NativePerfHistory := h.observe math o.native o.t o.g o.now

/-- What a valid frame tells each stream of a history that has been entered. -/
def heard : PerfName → Told
  | .cpu =>
    if cpuOk math h o.t o.now then .given false (o.sequence .cpu) (o.entry math .cpu)
    else .refused (if o.t.haveCpu then o.t.cpu.sequence else 0)
  | .applicationCpu =>
    if applicationCpuOk h o.t o.now then
      .given ((cpuFigure o.t).source ≠ h.cpuSource) (o.sequence .applicationCpu)
        (o.entry math .applicationCpu)
    else .refused (if o.t.haveCpu then o.t.cpu.sequence else 0)
  | .producer =>
    if gpuOk h o.g o.now then .given false (o.sequence .producer) (o.entry math .producer)
    else .refused (if o.g.haveResult then o.g.result.sequence else 0)
  | .applicationGpu =>
    if gpuOk h o.g o.now && o.g.result.source == .applicationRender then
      .given false (o.sequence .applicationGpu) (o.entry math .applicationGpu)
    else .refused (if o.g.haveResult then o.g.result.sequence else 0)
  | .device =>
    if deviceOk math h o.t o.now then .given false (o.sequence .device) (o.entry math .device)
    else .refused
      (if o.t.haveDeviceGpu ∧ o.t.deviceGpu.status ≠ .pending then o.t.deviceGpu.sequence else 0)

def spoiled : PerfName → Told
  | .cpu | .applicationCpu => .refused (max o.t.sequence o.t.cpu.sequence)
  | .producer | .applicationGpu => .refused (if o.g.haveResult then o.g.result.sequence else 0)
  | .device => .refused (if o.t.haveDeviceGpu then o.t.deviceGpu.sequence else 0)

def told (name : PerfName) : Told :=
  if o.t.invalid then spoiled o name else heard math h o name

structure Changed (h' : NativePerfHistory) (name : PerfName) : Prop where
  streams : h'.streams =
    Function.update h.streams name ((h.streams name).hear (heard math h o name))
  generation : h'.generation = h.generation
  firstSequence : h'.firstSequence = h.firstSequence

theorem hear_given (s : PerfStream) (sequence : Nat) (entry : PerfEntry) :
    s.hear (.given false sequence entry) = s.add sequence entry := by
  simp only [PerfStream.hear, PerfStream.add, Bool.false_eq_true, if_false]
  split
  · rfl
  · rfl

variable {sequence : Nat}

theorem add_old {s : PerfStream} (old : ¬s.floor < sequence) (entry : PerfEntry) :
    s.add sequence entry = s :=
  if_pos (Nat.le_of_not_lt old)

theorem hear_new {s : PerfStream} (new : s.floor < sequence) (restart : Bool) (entry : PerfEntry) :
    s.hear (.given restart sequence entry) =
      (if restart then s.reset 0 else s).add sequence entry :=
  if_neg (Nat.not_le.mpr new)

theorem observeCpu_changed :
    Changed math h o (observeCpu math h o.t o.now) .cpu ∧
      (observeCpu math h o.t o.now).cpuSource = h.cpuSource := by
  unfold observeCpu
  cases isOk : cpuOk math h o.t o.now with
  | false =>
    refine ⟨⟨?_, rfl, rfl⟩, rfl⟩
    rw [heard, isOk]
    rfl
  | true =>
    simp only [Bool.not_true, Bool.false_eq_true, if_false]
    split
    · refine ⟨⟨?_, rfl, rfl⟩, rfl⟩
      rw [heard, isOk, if_pos rfl, hear_given]
      rfl
    · rename_i old
      refine ⟨⟨?_, rfl, rfl⟩, rfl⟩
      have same : (h.streams .cpu).add (o.sequence .cpu) (o.entry math .cpu) = h.streams .cpu :=
        add_old old _
      rw [heard, isOk, if_pos rfl, hear_given, same, Function.update_eq_self]

theorem observeApplicationCpu_changed :
    Changed math h o (observeApplicationCpu h o.t o.now) .applicationCpu ∧
      (observeApplicationCpu h o.t o.now).cpuSource =
        if applicationCpuOk h o.t o.now ∧ (h.streams .applicationCpu).floor < o.t.cpu.sequence then
          (cpuFigure o.t).source
        else h.cpuSource := by
  unfold observeApplicationCpu
  cases isOk : applicationCpuOk h o.t o.now with
  | false =>
    refine ⟨⟨?_, rfl, rfl⟩, rfl⟩
    rw [heard, isOk]
    rfl
  | true =>
    dsimp only
    simp only [Bool.not_true, Bool.false_eq_true, if_false, true_and]
    split
    · rename_i new
      refine ⟨⟨?_, rfl, rfl⟩, rfl⟩
      have isNew := hear_new new (decide ((cpuFigure o.t).source ≠ h.cpuSource))
        (o.entry math .applicationCpu)
      simp only [decide_eq_true_eq] at isNew
      rw [heard, isOk, if_pos rfl]
      exact congrArg (Function.update h.streams .applicationCpu) isNew.symm
    · rename_i old
      refine ⟨⟨?_, rfl, rfl⟩, rfl⟩
      have same : (h.streams .applicationCpu).hear (.given
          (decide ((cpuFigure o.t).source ≠ h.cpuSource)) (o.sequence .applicationCpu)
          (o.entry math .applicationCpu)) = h.streams .applicationCpu :=
        if_pos (Nat.le_of_not_lt old)
      rw [heard, isOk, if_pos rfl, same, Function.update_eq_self]

variable {name : PerfName}

theorem observeGpu_changed {ok : Bool}
    (isGpu : heard math h o name = if ok then .given false o.g.result.sequence ⟨gpuAt o.g o.now, o.g.outerMs, 0⟩ else .refused (if o.g.haveResult then o.g.result.sequence else 0)) :
    Changed math h o (observeGpu name ok h o.g o.now) name ∧
      (observeGpu name ok h o.g o.now).cpuSource = h.cpuSource := by
  unfold observeGpu
  cases ok with
  | false =>
    refine ⟨⟨?_, rfl, rfl⟩, rfl⟩
    rw [isGpu]
    rfl
  | true =>
    refine ⟨⟨?_, rfl, rfl⟩, rfl⟩
    rw [isGpu, if_pos rfl, hear_given]
    rfl

theorem observeDevice_changed :
    Changed math h o (observeDevice math h o.t o.now) .device ∧
      (observeDevice math h o.t o.now).cpuSource = h.cpuSource := by
  unfold observeDevice
  cases isOk : deviceOk math h o.t o.now with
  | false =>
    refine ⟨⟨?_, rfl, rfl⟩, rfl⟩
    rw [heard, isOk]
    rfl
  | true =>
    refine ⟨⟨?_, rfl, rfl⟩, rfl⟩
    rw [heard, isOk, if_pos rfl, hear_given]
    rfl

theorem heard_congr {h h' : NativePerfHistory} (first : h'.firstSequence = h.firstSequence)
    (source : name = .applicationCpu → h'.cpuSource = h.cpuSource) :
    heard math h' o name = heard math h o name := by
  have cpu : cpuOk math h' o.t o.now = cpuOk math h o.t o.now := by
    rw [cpuOk, first, ← cpuOk]
  have application : applicationCpuOk h' o.t o.now = applicationCpuOk h o.t o.now := by
    rw [applicationCpuOk, first, ← applicationCpuOk]
  have gpu : gpuOk h' o.g o.now = gpuOk h o.g o.now := by
    rw [gpuOk, first, ← gpuOk]
  have device : deviceOk math h' o.t o.now = deviceOk math h o.t o.now := by
    rw [deviceOk, first, ← deviceOk]
  cases name with
  | cpu => rw [heard, heard, cpu]
  | applicationCpu => rw [heard, heard, application, source rfl]
  | producer => rw [heard, heard, gpu]
  | applicationGpu => rw [heard, heard, gpu]
  | device => rw [heard, heard, device]

/-- An observation of a session tells each stream what it is told, and changes the source
only when the CPU figure is taken. -/
structure Performed (h h' : NativePerfHistory) : Prop where
  streams : ∀ name, h'.streams name = (h.streams name).hear (told math h o name)
  generation : h'.generation = h.generation
  firstSequence : h'.firstSequence = h.firstSequence
  cpuSource : h'.cpuSource = match told math h o .applicationCpu with
    | .given _ sequence _ =>
      if (h.streams .applicationCpu).floor < sequence then (cpuFigure o.t).source else h.cpuSource
    | .refused _ => h.cpuSource

theorem performed_invalid (invalid : o.t.invalid = true) :
    Performed math o h (h.invalidate o.t o.g) := by
  refine ⟨fun name => ?_, rfl, rfl, ?_⟩
  · rw [told, if_pos invalid]
    cases name <;> rfl
  · rw [told, if_pos invalid]
    rfl

theorem performed_valid (valid : o.t.invalid = false) :
    Performed math o h (observeDevice math (observeApplicationGpu (observeProducer
      (observeApplicationCpu (observeCpu math h o.t o.now) o.t o.now) o.g o.now) o.g o.now)
      o.t o.now) := by
  obtain ⟨cpu, cpuSource⟩ := observeCpu_changed math h o
  generalize observeCpu math h o.t o.now = a at cpu cpuSource
  obtain ⟨application, applicationSource⟩ := observeApplicationCpu_changed math a o
  generalize observeApplicationCpu a o.t o.now = b at application applicationSource
  have ofProducer : Changed math b o (observeProducer b o.g o.now) .producer ∧
      (observeProducer b o.g o.now).cpuSource = b.cpuSource := observeGpu_changed math b o rfl
  obtain ⟨producer, producerSource⟩ := ofProducer
  generalize observeProducer b o.g o.now = c at producer producerSource
  have ofGpu : Changed math c o (observeApplicationGpu c o.g o.now) .applicationGpu ∧
      (observeApplicationGpu c o.g o.now).cpuSource = c.cpuSource := observeGpu_changed math c o rfl
  obtain ⟨gpu, gpuSource⟩ := ofGpu
  generalize observeApplicationGpu c o.g o.now = d at gpu gpuSource
  obtain ⟨device, deviceSource⟩ := observeDevice_changed math d o
  generalize observeDevice math d o.t o.now = e at device deviceSource
  have first := cpu.firstSequence
  have firstB := application.firstSequence.trans first
  have firstC := producer.firstSequence.trans firstB
  have firstD := gpu.firstSequence.trans firstC
  have told (name : PerfName) : told math h o name = heard math h o name := by
    rw [NativePerfHistory.told, valid]
    rfl
  have other : ∀ {name : PerfName}, name ≠ .applicationCpu → ∀ {h' : NativePerfHistory},
      name = .applicationCpu → h'.cpuSource = h.cpuSource := fun ne _ eq => absurd eq ne
  refine ⟨fun name => ?_, ?_, device.firstSequence.trans firstD, ?_⟩
  · rw [told, device.streams, gpu.streams, producer.streams, application.streams, cpu.streams]
    cases name with
    | cpu => simp
    | applicationCpu =>
      rw [heard_congr math o first fun _ => cpuSource]
      simp
    | producer =>
      rw [heard_congr math o firstB (other (by decide))]
      simp
    | applicationGpu =>
      rw [heard_congr math o firstC (other (by decide))]
      simp
    | device =>
      rw [heard_congr math o firstD (other (by decide))]
      simp
  · rw [device.generation, gpu.generation, producer.generation, application.generation,
      cpu.generation]
  · rw [told, deviceSource, gpuSource, producerSource, applicationSource, cpuSource]
    have stream : a.streams .applicationCpu = h.streams .applicationCpu := by
      rw [cpu.streams]
      rfl
    have ok : applicationCpuOk a o.t o.now = applicationCpuOk h o.t o.now := by
      rw [applicationCpuOk, first, ← applicationCpuOk]
    rw [stream, ok, heard]
    cases applicationCpuOk h o.t o.now with
    | false => rfl
    | true => simp [PerfObservation.sequence]

theorem perform_live (live : o.Live) : Performed math o (h.enter o.t) (h.perform math o) := by
  obtain ⟨native, active, generation, first⟩ := live
  unfold perform observe
  rw [if_neg (by simp [native, active, generation, first])]
  cases invalid : o.t.invalid with
  | true => exact performed_invalid math _ o invalid
  | false => exact performed_valid math _ o invalid

theorem perform_other (other : ¬o.Live) : h.perform math o = h.clear := by
  refine if_pos ?_
  by_contra live
  refine other ?_
  simpa [PerfObservation.Live, not_or, and_assoc] using live

theorem told_given {restart : Bool} {entry : PerfEntry}
    (given : told math h o name = .given restart sequence entry) :
    sequence = o.sequence name ∧ entry = o.entry math name ∧ o.t.invalid = false ∧
      (name = .applicationCpu → restart = decide ((cpuFigure o.t).source ≠ h.cpuSource)) := by
  unfold told at given
  split at given
  · cases name <;> cases given
  · rename_i valid
    have valid : o.t.invalid = false := by simpa using valid
    cases name with
    | applicationCpu =>
      rw [heard] at given
      split at given
      · cases given
        exact ⟨rfl, rfl, valid, fun _ => rfl⟩
      · cases given
    | cpu | producer | applicationGpu | device =>
      rw [heard] at given
      split at given
      · cases given
        exact ⟨rfl, rfl, valid, fun eq => by cases eq⟩
      · cases given

theorem offered_consumed {consumed : Nat} (refused : told math h o name = .refused consumed)
    (offers : o.Offers name sequence) (done : ¬o.Pending name) : sequence ≤ consumed := by
  unfold told at refused
  split at refused
  · rename_i invalid
    cases name with
    | cpu | applicationCpu =>
      cases refused
      rcases offers with ⟨-, rfl⟩ | ⟨-, rfl | rfl⟩
      · exact Nat.le_max_right ..
      · exact Nat.le_max_left ..
      · exact Nat.le_max_right ..
    | producer | applicationGpu | device =>
      cases refused
      obtain ⟨have', rfl⟩ := offers
      rw [if_pos have']
  · rename_i valid
    cases name with
    | cpu | applicationCpu =>
      rw [heard] at refused
      split at refused
      · cases refused
      · cases refused
        rcases offers with ⟨have', rfl⟩ | ⟨invalid, -⟩
        · rw [if_pos have']
        · exact absurd invalid valid
    | producer | applicationGpu =>
      rw [heard] at refused
      split at refused
      · cases refused
      · cases refused
        obtain ⟨have', rfl⟩ := offers
        rw [if_pos have']
    | device =>
      rw [heard] at refused
      split at refused
      · cases refused
      · cases refused
        obtain ⟨have', rfl⟩ := offers
        rw [if_pos ⟨have', fun pending => done ⟨rfl, pending⟩⟩]

theorem offered_given (valid : o.t.invalid = false) (offers : o.Offers name sequence) :
    sequence = o.sequence name := by
  cases name with
  | cpu | applicationCpu =>
    rcases offers with ⟨-, same⟩ | ⟨invalid, -⟩
    · exact same
    · rw [valid] at invalid
      cases invalid
  | producer | applicationGpu | device => exact offers.2

end NativePerfHistory

end EdvrPatch.Timing
