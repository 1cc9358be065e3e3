import EdvrPatch.Gpu.SpanState
import EdvrPatch.Lib.Ring
import EdvrPatch.Timing.Native

/-! The performance history of `native_perf_history.cpp`: five rings of the latest samples, each
with the largest sequence it has taken or refused. The averages, graph and periods read off it are
left out; sums and widenings of floats are free. -/
namespace EdvrPatch.Timing

open Gpu (GpuSpanResult GpuSpanReason GpuSpanSource)

inductive EdvrNativeGpuStatus where
  | pending | valid | disabled | incomplete | queryFailure | stale | notSeparate
  deriving DecidableEq, Repr

structure EdvrNativeDeviceGpuSample where
  sequence : Nat := 0
  completedAtMs : Nat := 0
  status : EdvrNativeGpuStatus := .pending
  transferMs : Binary64 × Binary64 := (0, 0)
  composeMs : Binary64 × Binary64 := (0, 0)
  deriving DecidableEq

structure TimedSnapshot extends NativeTimingSnapshot where
  haveDeviceGpu : Bool := false
  deviceGpu : EdvrNativeDeviceGpuSample := {}
  deriving DecidableEq

/-- The result's ticks as the milliseconds they come to stand beside it. -/
structure GpuFrameSnapshot where
  enabled : Bool := false
  haveResult : Bool := false
  result : GpuSpanResult := {}
  outerMs : Binary64 := 0
  capturedAtMs : Nat := 0
  deriving DecidableEq

structure PerfMath where
  add : Binary64 → Binary64 → Binary64
  widen : UInt32 → Binary64

structure PerfEntry where
  stamp : Nat := 0
  values : Binary64 × Binary64 := (0, 0)
  deriving DecidableEq, Repr

def kPerfCapacity : Nat := 900

structure PerfStream where
  ring : Lib.Ring PerfEntry kPerfCapacity := { slots := fun _ => {} }
  floor : Nat := 0

namespace PerfStream

def reset (s : PerfStream) (consumed : Nat) : PerfStream where
  ring := s.ring.restart
  floor := max s.floor consumed

def add (s : PerfStream) (sequence : Nat) (entry : PerfEntry) : PerfStream :=
  if sequence ≤ s.floor then s else { ring := s.ring.push entry, floor := sequence }

end PerfStream

inductive NativeCpuSource where
  | none | callerWork | preSubmit
  deriving DecidableEq, Repr

structure NativeCpuFigure where
  source : NativeCpuSource := .none
  valid : Bool := false
  ms : Binary64 := 0
  deriving DecidableEq, Repr

inductive PerfName where
  | cpu | applicationCpu | producer | applicationGpu | device
  deriving DecidableEq, Repr

structure NativePerfHistory where
  streams : PerfName → PerfStream := fun _ => {}
  generation : Nat := 0
  firstSequence : Nat := 0
  cpuSource : NativeCpuSource := .none
  period : Binary64 := 0
  periodAt : Nat := 0
  baseHz : Binary64 := 0
  baseHzAt : Nat := 0
  firstPeriodMs : Binary64 := 0

def duration (v : Binary64) : Bool := finiteNonnegative v

def bothDurations (pair : Binary64 × Binary64) : Bool := duration pair.1 && duration pair.2

def age (now stamp window : Nat) : Bool :=
  stamp != 0 && decide (stamp ≤ now) && decide (now - stamp ≤ window)

def periodSensible (v : Binary64) : Bool := v != 0 && decide (v ≤ 0x40c3880000000000)

def rateSensible (v : UInt32) : Bool := v != 0 && decide (v ≤ 0x447a0000)

def cpuFigure (t : TimedSnapshot) : NativeCpuFigure :=
  if !t.haveCpu then {}
  else if 5 ≤ t.cpu.version then
    let valid := t.cpu.callerWorkValid == 1 && duration t.cpu.callerWorkMs
    ⟨.callerWork, valid, if valid then t.cpu.callerWorkMs else 0⟩
  else
    let valid := t.applicationValid && duration t.applicationMs
    ⟨.preSubmit, valid, if valid then t.applicationMs else 0⟩

/-- When a GPU result was complete, zero where the stamps do not add up. -/
def gpuAt (g : GpuFrameSnapshot) (now : Nat) : Nat :=
  if g.capturedAtMs ≠ 0 ∧ g.capturedAtMs ≤ now ∧ g.result.ageMs < g.capturedAtMs then
    g.capturedAtMs - g.result.ageMs
  else 0

namespace NativePerfHistory

variable (math : PerfMath)

def set (h : NativePerfHistory) (name : PerfName) (stream : PerfStream) : NativePerfHistory :=
  { h with streams := Function.update h.streams name stream }

def clear (h : NativePerfHistory) : NativePerfHistory :=
  { streams := fun name => { (h.streams name).reset 0 with floor := 0 } }

def enter (h : NativePerfHistory) (t : TimedSnapshot) : NativePerfHistory :=
  if h.generation ≠ t.generation ∨ h.firstSequence ≠ t.firstSequence then
    { h.clear with generation := t.generation, firstSequence := t.firstSequence }
  else h

def invalidate (h : NativePerfHistory) (t : TimedSnapshot) (g : GpuFrameSnapshot) :
    NativePerfHistory :=
  let cpu := max t.sequence t.cpu.sequence
  let gpu := if g.haveResult then g.result.sequence else 0
  let device := if t.haveDeviceGpu then t.deviceGpu.sequence else 0
  { h with
    streams := fun
      | .cpu => (h.streams .cpu).reset cpu
      | .applicationCpu => (h.streams .applicationCpu).reset cpu
      | .producer => (h.streams .producer).reset gpu
      | .applicationGpu => (h.streams .applicationGpu).reset gpu
      | .device => (h.streams .device).reset device
    period := 0, periodAt := 0, baseHz := 0, baseHzAt := 0 }

def submitMs (t : TimedSnapshot) : Binary64 := math.add t.cpu.submitMs.1 t.cpu.submitMs.2

def cpuOk (h : NativePerfHistory) (t : TimedSnapshot) (now : Nat) : Bool :=
  t.haveCpu && decide (h.firstSequence ≤ t.cpu.sequence) && t.cpu.sequence == t.sequence &&
    age now t.capturedAtMs 2000 && duration t.waitMs && duration t.cpu.composeMs &&
    bothDurations t.cpu.submitMs && bothDurations t.cpu.temporalMs &&
    bothDurations t.cpu.menuMs && bothDurations t.cpu.transferMs && duration (submitMs math t)

def observeCpu (h : NativePerfHistory) (t : TimedSnapshot) (now : Nat) : NativePerfHistory :=
  if !cpuOk math h t now then
    { h.set .cpu ((h.streams .cpu).reset (if t.haveCpu then t.cpu.sequence else 0)) with
      period := 0, periodAt := 0, baseHz := 0, baseHzAt := 0 }
  else if (h.streams .cpu).floor < t.cpu.sequence then
    let period := if periodSensible t.predictedPeriodMs then t.predictedPeriodMs else 0
    let baseHz := if 4 ≤ t.cpu.version ∧ rateSensible t.cpu.baseDisplayHz then
      math.widen t.cpu.baseDisplayHz else 0
    { h.set .cpu ((h.streams .cpu).add t.cpu.sequence
        ⟨t.capturedAtMs, submitMs math t, t.waitMs⟩) with
      period := period
      periodAt := if period ≠ 0 then t.capturedAtMs else 0
      baseHz := baseHz
      baseHzAt := if baseHz ≠ 0 then t.capturedAtMs else 0
      firstPeriodMs := if h.firstPeriodMs = 0 ∧ period ≠ 0 then period else h.firstPeriodMs }
  else h

def applicationCpuOk (h : NativePerfHistory) (t : TimedSnapshot) (now : Nat) : Bool :=
  (cpuFigure t).valid && decide (h.firstSequence ≤ t.cpu.sequence) &&
    t.cpu.sequence == t.sequence && age now t.capturedAtMs 2000

def observeApplicationCpu (h : NativePerfHistory) (t : TimedSnapshot) (now : Nat) :
    NativePerfHistory :=
  let stream := h.streams .applicationCpu
  if !applicationCpuOk h t now then
    h.set .applicationCpu (stream.reset (if t.haveCpu then t.cpu.sequence else 0))
  else if stream.floor < t.cpu.sequence then
    let figure := cpuFigure t
    let stream := if figure.source ≠ h.cpuSource then stream.reset 0 else stream
    { h.set .applicationCpu (stream.add t.cpu.sequence ⟨t.capturedAtMs, figure.ms, 0⟩) with
      cpuSource := figure.source }
  else h

def gpuOk (h : NativePerfHistory) (g : GpuFrameSnapshot) (now : Nat) : Bool :=
  g.enabled && g.haveResult && g.result.reason == .valid &&
    decide (h.firstSequence ≤ g.result.sequence) && age now (gpuAt g now) 2000 &&
    duration g.outerMs

def observeGpu (name : PerfName) (ok : Bool) (h : NativePerfHistory) (g : GpuFrameSnapshot)
    (now : Nat) : NativePerfHistory :=
  let stream := h.streams name
  if !ok then h.set name (stream.reset (if g.haveResult then g.result.sequence else 0))
  else h.set name (stream.add g.result.sequence ⟨gpuAt g now, g.outerMs, 0⟩)

def observeProducer (h : NativePerfHistory) (g : GpuFrameSnapshot) (now : Nat) :
    NativePerfHistory :=
  observeGpu .producer (gpuOk h g now) h g now

def observeApplicationGpu (h : NativePerfHistory) (g : GpuFrameSnapshot) (now : Nat) :
    NativePerfHistory :=
  observeGpu .applicationGpu (gpuOk h g now && g.result.source == .applicationRender) h g now

def copyMs (t : TimedSnapshot) : Binary64 :=
  math.add t.deviceGpu.transferMs.1 t.deviceGpu.transferMs.2

def composeMs (t : TimedSnapshot) : Binary64 :=
  math.add t.deviceGpu.composeMs.1 t.deviceGpu.composeMs.2

def deviceOk (h : NativePerfHistory) (t : TimedSnapshot) (now : Nat) : Bool :=
  t.haveDeviceGpu && decide (h.firstSequence ≤ t.deviceGpu.sequence) &&
    t.deviceGpu.status == .valid && age now t.deviceGpu.completedAtMs 2000 &&
    bothDurations t.deviceGpu.transferMs && bothDurations t.deviceGpu.composeMs &&
    duration (copyMs math t) && duration (composeMs math t)

/-- A pending result may still resolve, any other that is refused is consumed. -/
def observeDevice (h : NativePerfHistory) (t : TimedSnapshot) (now : Nat) : NativePerfHistory :=
  let stream := h.streams .device
  if !deviceOk math h t now then
    h.set .device (stream.reset
      (if t.haveDeviceGpu ∧ t.deviceGpu.status ≠ .pending then t.deviceGpu.sequence else 0))
  else
    h.set .device (stream.add t.deviceGpu.sequence
      ⟨t.deviceGpu.completedAtMs, copyMs math t, composeMs math t⟩)

def observe (h : NativePerfHistory) (native : Bool) (t : TimedSnapshot) (g : GpuFrameSnapshot)
    (now : Nat) : NativePerfHistory :=
  if !native || !t.active || t.generation = 0 || t.firstSequence = 0 then h.clear
  else
    let h := h.enter t
    if t.invalid then h.invalidate t g
    else
      let h := observeCpu math h t now
      let h := observeApplicationCpu h t now
      let h := observeProducer h g now
      let h := observeApplicationGpu h g now
      observeDevice math h t now

end NativePerfHistory

end EdvrPatch.Timing
