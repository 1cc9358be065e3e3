import EdvrPatch.Gpu.DeviceRuns

/-! What the instrument publishes: the accepted frames in the order of their
sequences, and as valid only those that were measured whole. -/
namespace EdvrPatch.Gpu

open Lib

namespace DeviceGpuTiming

variable (answers : Nat → DeviceAnswer) (spanMs : SpanMs) {g g' : DeviceGpuTiming} {i : Fin kSlots}

structure Reads (g g' : DeviceGpuTiming) (i : Fin kSlots)
    (result : Option (EdvrNativeDeviceGpuSample × Bool)) : Prop where
  inv : Inv g'
  same : SameFrame g g'
  slots : g'.slots = g.slots
  sequence : ∀ sample reusable, result = some (sample, reusable) → sample.sequence = (g.slots i).sequence
  times : ∀ sample reusable, result = some (sample, reusable) → sample.status ≠ .valid → sample.TimesZero
  whole : ∀ sample reusable, result = some (sample, reusable) → sample.status = .valid →
    ∃ raw, g'.view.read i = some raw ∧
      ((stampsOf (g.slots i).order none).map raw.ticks).Pairwise (· ≤ ·)

theorem Inv.polls (h : Inv g) (call : Bool → DeviceCall) {raw : GpuSpanRawSample}
    (isPoll : ∀ ok, call ok = .poll i raw) : Inv (g.issue answers call).2 := by
  refine h.event rfl ?_ ?_
  · rw [isPoll]
    trivial
  · rw [isPoll]
    refine h.fits.slots ⟨rfl, rfl, rfl, rfl, rfl, rfl, rfl, id⟩ rfl rfl rfl h.fits.uncertain rfl
      fun k => ?_
    exact (h.fits.slot k).other rfl rfl Iff.rfl rfl (fun _ _ => Iff.rfl) rfl fun _ mem => mem

theorem Reads.waits (inv : Inv g') (same : SameFrame g g') (slots : g'.slots = g.slots) :
    Reads g g' i none :=
  ⟨inv, same, slots, nofun, nofun, nofun⟩

theorem Reads.fails {sample : EdvrNativeDeviceGpuSample} (inv : Inv g') (same : SameFrame g g')
    (slots : g'.slots = g.slots) (sequence : sample.sequence = (g.slots i).sequence)
    (invalid : sample.status ≠ .valid) (times : sample.TimesZero) (reusable : Bool) :
    Reads g g' i (some (sample, reusable)) := by
  refine ⟨inv, same, slots, ?_, ?_, ?_⟩
  · rintro _ _ ⟨⟩
    exact sequence
  · rintro _ _ ⟨⟩ _
    exact times
  · rintro _ _ ⟨⟩ valid
    exact absurd valid invalid

theorem Inv.publishes (h : Inv g) (sample : EdvrNativeDeviceGpuSample)
    (allowed : deviceProtocol.allows g.view (.published sample)) :
    Inv { g with
      lastPublishedSequence := sample.sequence, log := g.log ++ [DeviceEvent.published sample] } := by
  have fits := h.fits
  refine h.event rfl allowed ⟨fits.current, fits.within, fits.opened, fits.started, rfl,
    fits.uncertain, fits.frame, fits.status, fun k => ?_⟩
  exact (fits.slot k).other rfl rfl Iff.rfl rfl (fun _ _ => Iff.rfl) rfl fun _ mem => mem

theorem Inv.gives (h : Inv g) (pending : (g.slots i).pending = true) (reusable : Bool) :
    Inv ((if reusable then g else g.destroy answers i).setSlot i { allocated := reusable }) := by
  have closed := ((h.fits.slot i).pending pending).1
  have idle : g.active ≠ some i := by
    intro isActive
    rw [(h.fits.slot i).active_open isActive] at closed
    cases closed
  cases reusable with
  | true => exact h.empties true idle closed
  | false =>
    exact (h.empties false idle closed).destroys answers (by rw [setSlot_self])

end DeviceGpuTiming

end EdvrPatch.Gpu
