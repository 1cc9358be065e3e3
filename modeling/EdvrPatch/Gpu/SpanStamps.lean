import EdvrPatch.Gpu.SpanProtocol

/-! Which timestamps a result is computed from. Eye calls and segment calls use the same indices of
a slot. Only the segment calls look at the kind of the open frame, so a result can be trusted when
no eye call meets an application frame. -/
namespace EdvrPatch.Gpu

open Lib

abbrev Stamp := Nat × Stamper

/-- The timestamps each slot has taken since its scope began. None is taken twice. -/
def stampProtocol : Monitor (Fin kSlots → List Stamp) Issued where
  advance taken issued :=
    match issued.call with
    | .begins i true => Function.update taken i []
    | .timestamp i index true => Function.update taken i (taken i ++ [(index, issued.stamper)])
    | _ => taken
  allows taken issued :=
    match issued.call with
    | .timestamp i index true => index ∉ (taken i).map Prod.fst
    | _ => True

/-- The kind of frame a call belongs to is the kind of the open frame. -/
def SpanCall.Fits (g : GpuSpanState) : SpanCall → Prop
  | .beginEye _ _ owner | .endEye _ _ owner | .finishFrame _ owner =>
    g.gate owner = .valid → ∀ i, g.opened = some i → (g.slots i).application = false
  | _ => True

instance (g : GpuSpanState) : (call : SpanCall) → Decidable (call.Fits g)
  | .beginEye _ _ owner | .endEye _ _ owner | .finishFrame _ owner =>
    inferInstanceAs (Decidable
      (g.gate owner = .valid → ∀ i, g.opened = some i → (g.slots i).application = false))
  | .beginFrame .. | .beginApplicationFrame .. | .endApplicationSegment ..
  | .resumeApplicationSegment .. | .finishApplicationFrame .. | .invalidateFrame ..
  | .poll .. | .shutdown .. => isTrue trivial

/-- What the instrument makes of a sample of a slot it has closed. -/
def verdict (s : Slot) (raw : GpuSpanRawSample) : GpuSpanReason :=
  if s.reason = .valid ∧ ¬s.application then validate s raw else s.reason

namespace GpuSpanState

def stamps (g : GpuSpanState) : Fin kSlots → List Stamp :=
  stampProtocol.after (fun _ => []) g.log

def Fitting (answers : Nat → SpanAnswer) : GpuSpanState → List SpanCall → Prop
  | _, [] => True
  | g, call :: rest => call.Fits g ∧ Fitting answers (g.perform answers call) rest

instance instDecidableFitting (answers : Nat → SpanAnswer) :
    (g : GpuSpanState) → (calls : List SpanCall) → Decidable (Fitting answers g calls)
  | _, [] => isTrue trivial
  | g, call :: rest =>
    have := instDecidableFitting answers (g.perform answers call) rest
    inferInstanceAs (Decidable (call.Fits g ∧ Fitting answers (g.perform answers call) rest))

/-- A result is computed from the timestamps of its own scope in a sample the driver
has answered with, and those were taken by calls of the kind the result is for. -/
structure Owned (answers : Nat → SpanAnswer) (g : GpuSpanState) (i : Fin kSlots) (now : Nat)
    (result : GpuSpanResult) : Prop where
  measured : ∃ n, g.asked ≤ n ∧ ∀ raw : GpuSpanRawSample,
    raw.disjoint = (answers n).raw.disjoint → raw.frequency = (answers n).raw.frequency →
    (∀ stamp ∈ g.stamps i, raw.ticks stamp.1 = (answers n).raw.ticks stamp.1) →
    resultOf (g.slots i) (verdict (g.slots i) raw) raw now = result
  stampers : ∀ stamp ∈ g.stamps i,
    match result.source with
    | .applicationRender => stamp.2 = .segment
    | .renderToSubmit => stamp.2 = .eye ∨ stamp.2 = .frame

structure MeasuredByOwnStamps (answers : Nat → SpanAnswer) (g : GpuSpanState) : Prop where
  once : stampProtocol.Admits (fun _ => []) g.log
  owned : ∀ now owner i result, (i, result) ∈ (g.poll answers now owner).1 →
    result.reason = .valid → g.Owned answers i now result

end GpuSpanState

def segmentStamps (n : Nat) : List Stamp :=
  (List.range n).map (·, .segment)

/-- The timestamps of an eye frame; `done` are the eyes that have ended. -/
def eyeStamps (done : List Nat) (active : Option Nat) : List Stamp :=
  (0, Stamper.frame) :: done.flatMap (fun eye => [(2 + 2 * eye, .eye), (3 + 2 * eye, .eye)]) ++
    active.toList.map fun eye => (2 + 2 * eye, Stamper.eye)

def eyeBits (eyes : List Nat) : Nat :=
  eyes.foldl (fun bits eye => bits ||| 2 ^ eye) 0

namespace Slot

structure Segments (s : Slot) (taken : List Stamp) : Prop where
  some_ : 1 ≤ s.segmentCount
  few : s.segmentCount ≤ 4
  taken : taken = segmentStamps (2 * s.segmentCount - s.segmentOpen.toNat)

structure Eyes (s : Slot) (done : List Nat) (taken : List Stamp) : Prop where
  unused : s.segmentOpen = false
  order : s.order = done ++ s.activeEye.toList
  once : s.order.Nodup
  two : ∀ eye ∈ s.order, eye ≤ 1
  begun : s.begun = eyeBits s.order
  ended : s.ended = eyeBits done
  taken : taken = eyeStamps done s.activeEye

structure Finished (s : Slot) (taken : List Stamp) : Prop where
  application : s.application = true → taken = segmentStamps (2 * s.segmentCount)
  frame : s.application = false →
    taken = eyeStamps s.order none ++ [(1, Stamper.frame)] ∧ s.order.Nodup ∧ ∀ eye ∈ s.order, eye ≤ 1

/-- How the timestamps of a slot go with what the slot knows of its frame. -/
structure Measured (s : Slot) (taken : List Stamp) : Prop where
  segments : s.state = .opened → s.application = true → s.Segments taken
  eyes : s.state = .opened → s.application = false → ∃ done, s.Eyes done taken
  finished : s.state = .pending → s.reason = .valid → s.Finished taken

theorem measured_free {created : Bool} (taken : List Stamp) :
    Measured { created := created } taken :=
  ⟨nofun, nofun, nofun⟩

theorem segmentStamps_indices (n : Nat) : (segmentStamps n).map Prod.fst = List.range n := by
  simp [segmentStamps, Function.comp_def]

theorem segmentStamps_succ (n : Nat) : segmentStamps n ++ [(n, Stamper.segment)] = segmentStamps (n + 1) := by
  simp [segmentStamps, List.range_succ]

theorem segmentEnd_eq {n : Nat} (some_ : 1 ≤ n) (few : n ≤ 4) :
    GpuSpanState.segmentEnd n = 2 * n - 1 := by
  unfold GpuSpanState.segmentEnd
  omega

theorem mem_eyeStamps {done : List Nat} {active : Option Nat} {k : Nat} :
    k ∈ (eyeStamps done active).map Prod.fst ↔
      k = 0 ∨ (∃ eye ∈ done, k = 2 + 2 * eye ∨ k = 3 + 2 * eye) ∨
        ∃ eye, active = some eye ∧ k = 2 + 2 * eye := by
  simp [eyeStamps, List.map_flatMap, eq_comm]

theorem eyeStamps_begin (done : List Nat) (eye : Nat) :
    eyeStamps done none ++ [(2 + 2 * eye, Stamper.eye)] = eyeStamps done (some eye) := by
  simp [eyeStamps]

theorem eyeStamps_end (done : List Nat) (eye : Nat) :
    eyeStamps done (some eye) ++ [(3 + 2 * eye, Stamper.eye)] = eyeStamps (done ++ [eye]) none := by
  simp [eyeStamps]

theorem eyeBits_concat (eyes : List Nat) (eye : Nat) :
    eyeBits (eyes ++ [eye]) = eyeBits eyes ||| 2 ^ eye := by
  simp [eyeBits]

theorem eyeBits_testBit (eyes : List Nat) (eye : Nat) :
    (eyeBits eyes).testBit eye = true ↔ eye ∈ eyes := by
  induction eyes using List.reverseRecOn with
  | nil => simp [eyeBits]
  | append_singleton eyes last ih =>
    rw [eyeBits_concat, Nat.testBit_or, Bool.or_eq_true, ih, Nat.testBit_two_pow]
    simp [eq_comm]

namespace Segments

variable {s : Slot} {taken : List Stamp}

theorem end_fresh (segments : s.Segments taken) (opened : s.segmentOpen = true) :
    GpuSpanState.segmentEnd s.segmentCount ∉ taken.map Prod.fst := by
  rw [segmentEnd_eq segments.some_ segments.few, segments.taken, segmentStamps_indices, opened]
  simp

theorem ends (segments : s.Segments taken) (opened : s.segmentOpen = true) :
    Segments { s with segmentOpen := false }
      (taken ++ [(GpuSpanState.segmentEnd s.segmentCount, Stamper.segment)]) := by
  refine ⟨segments.some_, segments.few, ?_⟩
  have some_ := segments.some_
  rw [segmentEnd_eq some_ segments.few, segments.taken, opened]
  simp only [Bool.toNat_true, Bool.toNat_false, segmentStamps_succ]
  congr 1
  omega

theorem start_fresh (segments : s.Segments taken) (closed : s.segmentOpen = false) :
    2 * s.segmentCount ∉ taken.map Prod.fst := by
  rw [segments.taken, segmentStamps_indices, closed]
  simp

theorem resumes (segments : s.Segments taken) (closed : s.segmentOpen = false)
    (few : s.segmentCount < 4) :
    Segments { s with segmentCount := s.segmentCount + 1, segmentOpen := true }
      (taken ++ [(2 * s.segmentCount, Stamper.segment)]) := by
  refine ⟨Nat.succ_pos _, few, ?_⟩
  rw [segments.taken, closed]
  simp only [Bool.toNat_true, Bool.toNat_false, Nat.sub_zero, segmentStamps_succ]
  rfl

end Segments

namespace Eyes

variable {s : Slot} {done : List Nat} {taken : List Stamp}

theorem end_fresh (eyes : s.Eyes done taken) : 1 ∉ taken.map Prod.fst := by
  rw [eyes.taken, mem_eyeStamps]
  rintro (zero | ⟨eye, -, even | odd⟩ | ⟨eye, -, even⟩) <;> omega

variable {eye : Nat}

theorem begin_fresh (eyes : s.Eyes done taken) (idle : s.activeEye = none)
    (unseen : s.begun.testBit eye = false) : 2 + 2 * eye ∉ taken.map Prod.fst := by
  have absent : eye ∉ done := by
    rw [← eyeBits_testBit, ← Bool.not_eq_false, not_not]
    have order := eyes.order
    rw [idle, Option.toList_none, List.append_nil] at order
    rw [← order, ← eyes.begun, unseen]
  rw [eyes.taken, mem_eyeStamps, idle]
  rintro (zero | ⟨other, member, even | odd⟩ | ⟨other, named, -⟩)
  · omega
  · rw [show eye = other by omega] at absent
    exact absent member
  · omega
  · cases named

theorem begins (eyes : s.Eyes done taken) (idle : s.activeEye = none) (known : eye ≤ 1)
    (unseen : s.begun.testBit eye = false) :
    Eyes { s with
        begun := s.begun ||| 2 ^ eye
        activeEye := some eye
        order := s.order ++ [eye] } done (taken ++ [(2 + 2 * eye, Stamper.eye)]) := by
  have order : s.order = done := by
    rw [eyes.order, idle, Option.toList_none, List.append_nil]
  have absent : eye ∉ s.order := by
    rw [← eyeBits_testBit, ← eyes.begun, unseen]
    exact nofun
  refine ⟨eyes.unused, ?_, ?_, ?_, ?_, eyes.ended, ?_⟩
  · rw [order, Option.toList_some]
  · exact List.nodup_append.mpr ⟨eyes.once, List.nodup_singleton eye, by
      intro a member b here same
      rw [List.mem_singleton.mp here] at same
      exact absent (same ▸ member)⟩
  · intro other member
    rcases List.mem_append.mp member with old | new
    · exact eyes.two other old
    · rw [List.mem_singleton.mp new]
      exact known
  · rw [eyeBits_concat, eyes.begun]
  · rw [eyes.taken, idle, eyeStamps_begin]

theorem finish_fresh (eyes : s.Eyes done taken) (active : s.activeEye = some eye) :
    3 + 2 * eye ∉ taken.map Prod.fst := by
  have once := eyes.once
  rw [eyes.order, active, Option.toList_some, List.nodup_append] at once
  rw [eyes.taken, mem_eyeStamps]
  rintro (zero | ⟨other, member, even | odd⟩ | ⟨other, -, even⟩)
  · omega
  · omega
  · exact once.2.2 other member eye (List.mem_singleton_self eye) (by omega)
  · omega

theorem ends (eyes : s.Eyes done taken) (active : s.activeEye = some eye) :
    Eyes { s with ended := s.ended ||| 2 ^ eye, activeEye := none } (done ++ [eye])
      (taken ++ [(3 + 2 * eye, Stamper.eye)]) := by
  refine ⟨eyes.unused, ?_, eyes.once, eyes.two, eyes.begun, ?_, ?_⟩
  · rw [eyes.order, active, Option.toList_some, Option.toList_none, List.append_nil]
  · rw [eyeBits_concat, eyes.ended]
  · rw [eyes.taken, active, eyeStamps_end]

theorem finished (eyes : s.Eyes done taken) (frame : s.application = false)
    (idle : s.activeEye = none) : s.Finished (taken ++ [(1, Stamper.frame)]) := by
  refine ⟨fun application => ?_, fun _ => ⟨?_, eyes.once, eyes.two⟩⟩
  · rw [frame] at application
    cases application
  · rw [eyes.taken, eyes.order, idle, Option.toList_none, List.append_nil]

end Eyes

end Slot

namespace GpuSpanState

structure TrackedBut (g : GpuSpanState) (i : Fin kSlots) : Prop where
  once : stampProtocol.Admits (fun _ => []) g.log
  others : ∀ k, k ≠ i → (g.slots k).Measured (g.stamps k)

structure Tracked (g : GpuSpanState) : Prop where
  once : stampProtocol.Admits (fun _ => []) g.log
  slots : ∀ i, (g.slots i).Measured (g.stamps i)

theorem tracked_fresh (owner : GpuSpanOwner) : Tracked (fresh owner) :=
  ⟨trivial, fun _ => Slot.measured_free _⟩

variable {g : GpuSpanState} {i : Fin kSlots}

theorem Tracked.but (tracked : Tracked g) (i : Fin kSlots) : TrackedBut g i :=
  ⟨tracked.once, fun k _ => tracked.slots k⟩

theorem TrackedBut.whole (but : TrackedBut g i) (measured : (g.slots i).Measured (g.stamps i)) :
    Tracked g := by
  refine ⟨but.once, fun k => ?_⟩
  by_cases same : k = i
  · rw [same]
    exact measured
  · exact but.others k same

theorem TrackedBut.setSlot (but : TrackedBut g i) (s : Slot) : TrackedBut (g.setSlot i s) i := by
  refine ⟨but.once, fun k other => ?_⟩
  have same : (g.setSlot i s).slots k = g.slots k := Function.update_of_ne other ..
  rw [same]
  exact but.others k other

theorem TrackedBut.fill (but : TrackedBut g i) {s : Slot} (measured : s.Measured (g.stamps i)) :
    Tracked (g.setSlot i s) := by
  refine (but.setSlot s).whole ?_
  have same : (g.setSlot i s).slots i = s := Function.update_self ..
  rw [same]
  exact measured

variable (answers : Nat → SpanAnswer)

theorem stamps_issue (call : Bool → QueryCall kSlots) (stamper : Stamper) :
    (g.issue answers call stamper).2.stamps =
      stampProtocol.advance g.stamps ⟨call (answers g.asked).ok, stamper⟩ := by
  unfold stamps GpuSpanState.issue
  rw [Monitor.after_append]
  rfl

theorem TrackedBut.issue (but : TrackedBut g i) (call : Bool → QueryCall kSlots) (stamper : Stamper)
    (allowed : stampProtocol.allows g.stamps ⟨call (answers g.asked).ok, stamper⟩)
    (same : ∀ k, k ≠ i →
      stampProtocol.advance g.stamps ⟨call (answers g.asked).ok, stamper⟩ k = g.stamps k) :
    TrackedBut (g.issue answers call stamper).2 i := by
  refine ⟨?_, fun k other => ?_⟩
  · unfold GpuSpanState.issue
    rw [Monitor.admits_append]
    exact ⟨but.once, allowed, trivial⟩
  · rw [stamps_issue, same k other]
    exact but.others k other

theorem TrackedBut.timestamp (but : TrackedBut g i) {index : Nat}
    (unused : index ∉ (g.stamps i).map Prod.fst) (stamper : Stamper) :
    TrackedBut (g.timestamp answers i index stamper).2 i := by
  refine but.issue answers _ stamper ?_ fun k other => ?_
  · cases (answers g.asked).ok with
    | true => exact unused
    | false => trivial
  · cases (answers g.asked).ok with
    | true => exact Function.update_of_ne other ..
    | false => rfl

theorem stamps_timestamp (index : Nat) (stamper : Stamper) :
    (g.timestamp answers i index stamper).2.stamps i =
      if (answers g.asked).ok then g.stamps i ++ [(index, stamper)] else g.stamps i := by
  unfold GpuSpanState.timestamp
  rw [stamps_issue]
  cases (answers g.asked).ok with
  | true => exact Function.update_self ..
  | false => rfl

theorem TrackedBut.settle (but : TrackedBut g i) (reason : GpuSpanReason) (now : Nat)
    (finished : reason = .valid → (g.slots i).Finished (g.stamps i)) :
    Tracked ((g.endScope answers i).2.settle i (g.endScope answers i).1 reason now).2 := by
  have told : TrackedBut (g.endScope answers i).2 i :=
    but.issue answers _ _ trivial fun _ _ => rfl
  have same : (g.endScope answers i).2.stamps = g.stamps := stamps_issue answers ..
  have filled := told.fill (s := { g.slots i with
    reason := reason, closedAtMs := now, state := .pending }) (by
      rw [same]
      exact ⟨nofun, nofun, fun _ valid => ⟨(finished valid).application, (finished valid).frame⟩⟩)
  exact ⟨filled.once, filled.slots⟩

theorem TrackedBut.close (but : TrackedBut g i) (unused : 1 ∉ (g.stamps i).map Prod.fst)
    (reason : GpuSpanReason) (now : Nat)
    (finished : reason = .valid → (g.slots i).Finished (g.stamps i ++ [(1, Stamper.frame)])) :
    Tracked (g.close answers i reason now).2 := by
  have stamped := but.timestamp answers unused .frame
  refine stamped.settle answers _ now fun valid => ?_
  rw [stamps_timestamp]
  cases answered : (answers g.asked).ok with
  | false =>
    rw [answered] at valid
    cases valid
  | true =>
    refine finished ?_
    by_contra other
    split at valid
    · exact other valid
    · cases valid

theorem TrackedBut.closeApplication (but : TrackedBut g i)
    (unused : (g.slots i).segmentOpen = true →
      segmentEnd (g.slots i).segmentCount ∉ (g.stamps i).map Prod.fst)
    {reason : GpuSpanReason} (bad : reason ≠ .valid) (now : Nat) :
    Tracked (g.closeApplication answers i reason now).2 := by
  have ended : TrackedBut (g.closeSegment answers i).2 i := by
    unfold GpuSpanState.closeSegment
    dsimp only
    generalize segmentEnd (g.slots i).segmentCount = index at unused
    split
    · rename_i opened
      split
      · exact (but.timestamp answers (unused opened) .closing).setSlot _
      · exact but.setSlot _
    · exact but
  refine ended.settle answers _ now fun valid => ?_
  split at valid
  · exact absurd valid bad
  · cases valid

theorem Tracked.closeOpen (tracked : Tracked g) (inv : Inv g) {reason : GpuSpanReason}
    (bad : reason ≠ .valid) (now : Nat) : Tracked (g.closeOpen answers reason now) := by
  unfold GpuSpanState.closeOpen
  cases active : g.opened with
  | none => exact tracked
  | some i =>
    have opened := (inv.slots i).opened.mpr active
    dsimp only
    split
    · rename_i application
      have segments := (tracked.slots i).segments opened application
      exact (tracked.but i).closeApplication answers segments.end_fresh bad now
    · rename_i frame
      obtain ⟨done, eyes⟩ := (tracked.slots i).eyes opened (by simpa using frame)
      exact (tracked.but i).close answers eyes.end_fresh reason now fun valid => absurd valid bad

theorem Tracked.told (tracked : Tracked g) (call : Bool → QueryCall kSlots) (stamper : Stamper)
    (allowed : stampProtocol.allows g.stamps ⟨call (answers g.asked).ok, stamper⟩)
    (same : stampProtocol.advance g.stamps ⟨call (answers g.asked).ok, stamper⟩ = g.stamps) :
    Tracked (g.issue answers call stamper).2 := by
  refine ⟨?_, fun k => ?_⟩
  · unfold GpuSpanState.issue
    rw [Monitor.admits_append]
    exact ⟨tracked.once, allowed, trivial⟩
  · rw [stamps_issue, same]
    exact tracked.slots k

theorem Tracked.takeSlot (tracked : Tracked g) (closed : Closed g) :
    Tracked (g.takeSlot answers).2 := by
  unfold GpuSpanState.takeSlot
  split
  · exact tracked
  rename_i i found
  have free : (g.slots i).state = .free := by simpa using List.find?_some found
  split
  · exact tracked
  have asked := tracked.told answers (.create i) .frame trivial rfl
  split
  · rename_i g' creating
    obtain rfl := congrArg Prod.snd creating
    exact asked
  · rename_i g' creating
    obtain rfl := congrArg Prod.snd creating
    refine (asked.but i).fill ?_
    change Slot.Measured { g.slots i with created := true } _
    rw [(closed.slots i).clean free]
    exact Slot.measured_free _

theorem Tracked.enter (tracked : Tracked g) (inv : Inv g) (sequence now : Nat)
    (owner : GpuSpanOwner) : Tracked (g.enter answers sequence now owner).2 := by
  unfold GpuSpanState.enter
  dsimp only
  split
  · exact tracked
  rename_i checked
  obtain ⟨-, running⟩ := gate_valid (not_not.mp checked)
  split
  · exact tracked
  have noted : Tracked { g with lastSequence := sequence } := ⟨tracked.once, tracked.slots⟩
  have known := inv.lastSequence sequence
  have closed := noted.closeOpen answers known (show GpuSpanReason.incomplete ≠ .valid by decide) now
  split
  · exact closed
  · exact closed.takeSlot answers (known.closeOpen answers running .incomplete now)

theorem TrackedBut.begins (but : TrackedBut g i) :
    TrackedBut (g.beginScope answers i).2 i ∧
      ((answers g.asked).ok = true → (g.beginScope answers i).2.stamps i = []) := by
  refine ⟨but.issue answers _ _ ?_ fun k other => ?_, fun answered => ?_⟩
  · cases (answers g.asked).ok <;> trivial
  · cases (answers g.asked).ok with
    | true => exact Function.update_of_ne other ..
    | false => rfl
  · unfold beginScope
    rw [stamps_issue, answered]
    exact Function.update_self ..

/-- A timestamp is taken for the open frame: the call goes on where the driver has
taken it, and closes the frame where it has not. -/
theorem TrackedBut.stamps (but : TrackedBut g i) {index : Nat}
    (unused : index ∉ (g.stamps i).map Prod.fst) (stamper : Stamper)
    {fails goes : GpuSpanState → GpuSpanReason × GpuSpanState}
    (closes : ∀ g', TrackedBut g' i → g'.slots = g.slots → g'.stamps i = g.stamps i →
      Tracked (fails g').2)
    (keeps : ∀ g', TrackedBut g' i → g'.slots = g.slots →
      g'.stamps i = g.stamps i ++ [(index, stamper)] → Tracked (goes g').2) :
    Tracked (match g.timestamp answers i index stamper with
      | (false, g) => fails g
      | (true, g) => goes g).2 := by
  have stamped := but.timestamp answers unused stamper
  have taken := stamps_timestamp answers (g := g) (i := i) index stamper
  split
  · rename_i g' stamping
    have failed : (answers g.asked).ok = false := congrArg Prod.fst stamping
    obtain rfl := congrArg Prod.snd stamping
    rw [failed] at taken
    exact closes _ stamped rfl taken
  · rename_i g' stamping
    have answered : (answers g.asked).ok = true := congrArg Prod.fst stamping
    obtain rfl := congrArg Prod.snd stamping
    rw [answered] at taken
    exact keeps _ stamped rfl taken

theorem TrackedBut.opens (but : TrackedBut g i) (first s : Slot)
    (answered : (answers g.asked).ok = true) :
    let g' := { ((g.setSlot i first).beginScope answers i).2.setSlot i s with opened := some i }
    TrackedBut g' i ∧ g'.stamps i = [] ∧ g'.slots i = s := by
  obtain ⟨begun, none_⟩ := (but.setSlot first).begins answers
  have opened := begun.setSlot s
  exact ⟨⟨opened.once, opened.others⟩, none_ answered, Function.update_self ..⟩

theorem Tracked.beginFrame (tracked : Tracked g) (inv : Inv g) (sequence sourceFrame now : Nat)
    (owner : GpuSpanOwner) : Tracked (g.beginFrame answers sequence sourceFrame now owner).2 := by
  have entered := inv.enter answers sequence now owner
  have kept := tracked.enter answers inv sequence now owner
  unfold GpuSpanState.beginFrame
  split
  · rename_i reason g' entering
    rw [entering] at kept
    exact kept
  rename_i i g' entering
  rw [entering] at entered kept
  have ready : Ready g' i := entered.2 i rfl
  let first : Slot := { created := true, sequence := sequence, sourceFrame := sourceFrame }
  have blank : { g'.slots i with sequence := sequence, sourceFrame := sourceFrame } = first := by
    rw [ready.blank]
  dsimp only at blank ⊢
  rw [blank]
  split
  · rename_i told begins
    obtain rfl := congrArg Prod.snd begins
    exact (((kept.but i).setSlot first).begins answers).1.fill ⟨nofun, nofun, nofun⟩
  · rename_i told begins
    have answered : (answers g'.asked).ok = true := congrArg Prod.fst begins
    obtain rfl := congrArg Prod.snd begins
    have begun : ((g'.setSlot i first).beginScope answers i).2.slots i = first :=
      Function.update_self ..
    rw [begun]
    obtain ⟨but, unstamped, slot⟩ := (kept.but i).opens answers first
      { first with state := .opened } answered
    have unused : 0 ∉ List.map Prod.fst ([] : List (Nat × Stamper)) := nofun
    rw [← unstamped] at unused
    refine but.stamps answers unused .frame ?_ ?_
    · intro g'' but' _ taken
      refine but'.close answers ?_ _ now nofun
      rw [taken, unstamped]
      exact nofun
    · intro g'' but' slots taken
      refine but'.whole ?_
      rw [slots, slot, taken, unstamped]
      exact ⟨fun _ => nofun, fun _ _ => ⟨[], rfl, rfl, .nil, nofun, rfl, rfl, rfl⟩, nofun⟩

theorem Tracked.beginApplicationFrame (tracked : Tracked g) (inv : Inv g)
    (sequence sourceFrame now : Nat) (owner : GpuSpanOwner) :
    Tracked (g.beginApplicationFrame answers sequence sourceFrame now owner).2 := by
  have kept := tracked.enter answers inv sequence now owner
  unfold GpuSpanState.beginApplicationFrame
  split
  · rename_i reason g' entering
    rw [entering] at kept
    exact kept
  rename_i i g' entering
  rw [entering] at kept
  let first : Slot :=
    { created := true, application := true, sequence := sequence, sourceFrame := sourceFrame }
  dsimp only
  split
  · rename_i told begins
    obtain rfl := congrArg Prod.snd begins
    exact (((kept.but i).setSlot first).begins answers).1.fill ⟨nofun, nofun, nofun⟩
  · rename_i told begins
    have answered : (answers g'.asked).ok = true := congrArg Prod.fst begins
    obtain rfl := congrArg Prod.snd begins
    have begun : ((g'.setSlot i first).beginScope answers i).2.slots i = first :=
      Function.update_self ..
    rw [begun]
    obtain ⟨but, unstamped, slot⟩ := (kept.but i).opens answers first
      { first with state := .opened, segmentCount := 1 } answered
    have unused : 0 ∉ List.map Prod.fst ([] : List (Nat × Stamper)) := nofun
    rw [← unstamped] at unused
    refine but.stamps answers unused .segment ?_ ?_
    · intro g'' but' slots _
      refine but'.closeApplication answers ?_ (by decide) now
      rw [slots, slot]
      exact nofun
    · intro g'' but' slots taken
      refine but'.fill ?_
      rw [slots, slot, taken, unstamped]
      exact ⟨fun _ _ => ⟨Nat.le_refl 1, show 1 ≤ 4 by decide, rfl⟩, fun _ => nofun, nofun⟩

theorem Tracked.onOpen (tracked : Tracked g) (inv : Inv g) (owner : GpuSpanOwner)
    (act : Fin kSlots → GpuSpanReason × GpuSpanState)
    (kept : ∀ i, g.opened = some i → (g.slots i).state = .opened → g.gate owner = .valid →
      Tracked (act i).2) :
    Tracked (g.onOpen owner act).2 := by
  unfold GpuSpanState.onOpen
  dsimp only
  split
  · exact tracked
  rename_i checked
  split
  · exact tracked
  · rename_i i active
    exact kept i active ((inv.slots i).opened.mpr active) (not_not.mp checked)

theorem Tracked.endApplicationSegment (tracked : Tracked g) (inv : Inv g) (now : Nat)
    (owner : GpuSpanOwner) : Tracked (g.endApplicationSegment answers now owner).2 := by
  refine tracked.onOpen inv owner _ fun i _ opened _ => ?_
  have measured := tracked.slots i
  have unused (running : (g.slots i).segmentOpen = true) :
      segmentEnd (g.slots i).segmentCount ∉ (g.stamps i).map Prod.fst := by
    cases kind : (g.slots i).application with
    | true => exact (measured.segments opened kind).end_fresh running
    | false =>
      obtain ⟨done, eyes⟩ := measured.eyes opened kind
      rw [eyes.unused] at running
      cases running
  dsimp only
  split
  · exact (tracked.but i).closeApplication answers unused (by decide) now
  · rename_i lawful
    simp only [Bool.or_eq_true, Bool.not_eq_true', beq_iff_eq, decide_eq_true_eq, not_or,
      Bool.not_eq_false, Nat.not_lt] at lawful
    obtain ⟨⟨⟨application, running⟩, -⟩, -⟩ := lawful
    have segments := measured.segments opened application
    refine (tracked.but i).stamps answers (segments.end_fresh running) .segment ?_ ?_
    · intro g' but slots taken
      refine but.closeApplication answers ?_ (by decide) now
      rw [slots, taken]
      exact unused
    · intro g' but slots taken
      refine but.fill ?_
      rw [slots, taken]
      have ends := segments.ends running
      exact ⟨fun _ _ => ends, fun _ frame => absurd (application.symm.trans frame) nofun,
        fun pending => absurd (opened.symm.trans pending) nofun⟩

theorem Tracked.resumeApplicationSegment (tracked : Tracked g) (inv : Inv g) (now : Nat)
    (owner : GpuSpanOwner) : Tracked (g.resumeApplicationSegment answers now owner).2 := by
  refine tracked.onOpen inv owner _ fun i _ opened _ => ?_
  dsimp only
  split
  · exact tracked
  · rename_i lawful
    simp only [Bool.or_eq_true, Bool.not_eq_true', decide_eq_true_eq, not_or, Bool.not_eq_false,
      Bool.not_eq_true, Nat.not_le] at lawful
    obtain ⟨⟨application, paused⟩, few⟩ := lawful
    have segments := (tracked.slots i).segments opened application
    refine (tracked.but i).stamps answers (segments.start_fresh paused) .segment ?_ ?_
    · intro g' but slots _
      refine but.closeApplication answers ?_ (by decide) now
      rw [slots, paused]
      exact nofun
    · intro g' but slots taken
      refine but.fill ?_
      rw [slots, taken]
      have resumes := segments.resumes paused few
      exact ⟨fun _ _ => resumes, fun _ frame => absurd (application.symm.trans frame) nofun,
        fun pending => absurd (opened.symm.trans pending) nofun⟩

theorem Tracked.finishApplicationFrame (tracked : Tracked g) (inv : Inv g) (now : Nat)
    (owner : GpuSpanOwner) : Tracked (g.finishApplicationFrame answers now owner).2 := by
  refine tracked.onOpen inv owner _ fun i _ opened _ => ?_
  dsimp only
  split
  · exact tracked
  rename_i kind
  have application : (g.slots i).application = true := by simpa using kind
  have segments := (tracked.slots i).segments opened application
  split
  · exact (tracked.but i).closeApplication answers segments.end_fresh (by decide) now
  · rename_i lawful
    simp only [Bool.or_eq_true, not_or, Bool.not_eq_true] at lawful
    have paused : (g.slots i).segmentOpen = false := lawful.1.1
    refine (tracked.but i).settle answers _ now fun _ => ⟨fun _ => ?_, fun frame => ?_⟩
    · rw [segments.taken, paused]
      rfl
    · exact absurd (application.symm.trans frame) nofun

variable {now : Nat} {owner : GpuSpanOwner}

theorem Tracked.beginEye (tracked : Tracked g) (inv : Inv g) {eye : Nat}
    (fits : (SpanCall.beginEye eye now owner).Fits g) :
    Tracked (g.beginEye answers eye now owner).2 := by
  refine tracked.onOpen inv owner _ fun i active opened checked => ?_
  have frame := fits checked i active
  obtain ⟨done, eyes⟩ := (tracked.slots i).eyes opened frame
  dsimp only
  split
  · exact (tracked.but i).close answers eyes.end_fresh _ now nofun
  · rename_i lawful
    simp only [Bool.or_eq_true, decide_eq_true_eq, not_or, Nat.not_lt, Bool.not_eq_true,
      Option.isSome_eq_false_iff, Option.isNone_iff_eq_none] at lawful
    obtain ⟨⟨known, idle⟩, unseen⟩ := lawful
    refine (tracked.but i).stamps answers (eyes.begin_fresh idle unseen) .eye ?_ ?_
    · intro g' but _ taken
      refine but.close answers ?_ _ now nofun
      rw [taken]
      exact eyes.end_fresh
    · intro g' but slots taken
      refine but.fill ?_
      rw [slots, taken]
      have begins := eyes.begins idle known unseen
      exact ⟨fun _ application => absurd (frame.symm.trans application) nofun,
        fun _ _ => ⟨done, begins⟩, fun pending => absurd (opened.symm.trans pending) nofun⟩

theorem Tracked.endEye (tracked : Tracked g) (inv : Inv g) {eye : Nat}
    (fits : (SpanCall.endEye eye now owner).Fits g) :
    Tracked (g.endEye answers eye now owner).2 := by
  refine tracked.onOpen inv owner _ fun i active opened checked => ?_
  have frame := fits checked i active
  obtain ⟨done, eyes⟩ := (tracked.slots i).eyes opened frame
  dsimp only
  split
  · exact (tracked.but i).close answers eyes.end_fresh _ now nofun
  · rename_i lawful
    simp only [Bool.or_eq_true, decide_eq_true_eq, not_or, bne_iff_ne, ne_eq, not_not] at lawful
    have seen := lawful.2
    refine (tracked.but i).stamps answers (eyes.finish_fresh seen) .eye ?_ ?_
    · intro g' but _ taken
      refine but.close answers ?_ _ now nofun
      rw [taken]
      exact eyes.end_fresh
    · intro g' but slots taken
      refine but.fill ?_
      rw [slots, taken]
      have ends := eyes.ends seen
      exact ⟨fun _ application => absurd (frame.symm.trans application) nofun,
        fun _ _ => ⟨_, ends⟩, fun pending => absurd (opened.symm.trans pending) nofun⟩

theorem Tracked.finishFrame (tracked : Tracked g) (inv : Inv g)
    (fits : (SpanCall.finishFrame now owner).Fits g) :
    Tracked (g.finishFrame answers now owner).2 := by
  refine tracked.onOpen inv owner _ fun i active opened checked => ?_
  have frame := fits checked i active
  obtain ⟨done, eyes⟩ := (tracked.slots i).eyes opened frame
  refine (tracked.but i).close answers eyes.end_fresh _ now fun valid => ?_
  split at valid
  · rename_i both
    exact eyes.finished frame both.2
  · cases valid

theorem Tracked.invalidateFrame (tracked : Tracked g) (inv : Inv g) (now : Nat)
    (owner : GpuSpanOwner) : Tracked (g.invalidateFrame answers now owner).2 := by
  refine tracked.onOpen inv owner _ fun i active _ _ => ?_
  have closed := tracked.closeOpen answers inv (show GpuSpanReason.incomplete ≠ .valid by decide) now
  unfold GpuSpanState.closeOpen at closed
  rw [active] at closed
  dsimp only at closed
  split at closed
  · rename_i application
    rw [if_pos application]
    exact closed
  · rename_i frame
    rw [if_neg frame]
    exact closed

theorem Tracked.retire (tracked : Tracked g) (i : Fin kSlots) (destroys : Bool) :
    Tracked (g.retire answers i destroys) ∧ (g.retire answers i destroys).stamps = g.stamps ∧
      g.asked ≤ (g.retire answers i destroys).asked := by
  unfold GpuSpanState.retire
  dsimp only
  split
  · have told := tracked.told answers (fun _ => .destroy i) .frame trivial rfl
    exact ⟨(told.but i).fill (Slot.measured_free _),
      stamps_issue answers (fun _ => .destroy i) .frame, Nat.le_succ _⟩
  · exact ⟨(tracked.but i).fill (Slot.measured_free _), rfl, Nat.le_refl _⟩

theorem Tracked.retires (tracked : Tracked g) (l : List (Fin kSlots)) :
    Tracked (l.foldl (fun g i => g.retire answers i true) g) := by
  induction l generalizing g with
  | nil => exact tracked
  | cons i _ ih => exact ih (tracked.retire answers i true).1

theorem Tracked.shutdown (tracked : Tracked g) (inv : Inv g) (now : Nat) (owner : GpuSpanOwner) :
    Tracked (g.shutdown answers now owner).2 := by
  unfold GpuSpanState.shutdown
  split
  · exact tracked
  · have closed := tracked.closeOpen answers inv (show GpuSpanReason.incomplete ≠ .valid by decide) now
    have retired := closed.retires answers (List.finRange kSlots)
    exact ⟨retired.once, retired.slots⟩

structure Beside (g : GpuSpanState) (i : Fin kSlots) (g' : GpuSpanState) : Prop where
  slots : ∀ k, k ≠ i → g'.slots k = g.slots k
  stamps : g'.stamps = g.stamps
  asked : g.asked ≤ g'.asked

theorem Tracked.sampled (tracked : Tracked g) (i : Fin kSlots) (now : Nat) :
    Tracked (g.sampled answers i now).2 ∧ Beside g i (g.sampled answers i now).2 ∧
      (g.sampled answers i now).2.slots i = g.slots i := by
  have asked : Tracked (g.pollDriver answers i).2.2 :=
    tracked.told answers (fun _ => .poll i) .frame trivial rfl
  have beside : Beside g i (g.pollDriver answers i).2.2 :=
    ⟨fun _ _ => rfl, stamps_issue answers (fun _ => .poll i) .frame, Nat.le_succ _⟩
  have still : Beside g i g := ⟨fun _ _ => rfl, rfl, Nat.le_refl _⟩
  unfold GpuSpanState.sampled
  dsimp only
  split
  · exact ⟨tracked, still, rfl⟩
  split
  · exact ⟨tracked, still, rfl⟩
  unfold GpuSpanState.pollDriver at asked beside ⊢
  dsimp only
  cases (answers g.asked).poll with
  | pending => exact ⟨asked, beside, rfl⟩
  | failed => exact ⟨asked, beside, rfl⟩
  | ready =>
    dsimp only
    split
    · exact ⟨asked, beside, rfl⟩
    split
    · exact ⟨asked, beside, rfl⟩
    · exact ⟨asked, beside, rfl⟩

theorem Tracked.pollSlot (tracked : Tracked g) (i : Fin kSlots) (now : Nat) :
    Tracked (g.pollSlot answers i now).2 ∧ Beside g i (g.pollSlot answers i now).2 := by
  obtain ⟨kept, beside, -⟩ := tracked.sampled answers i now
  unfold GpuSpanState.pollSlot
  dsimp only
  split
  · exact ⟨tracked, fun _ _ => rfl, rfl, Nat.le_refl _⟩
  split
  · rename_i g' sampling
    rw [sampling] at kept beside
    exact ⟨kept, beside⟩
  · rename_i reason raw g' sampling
    rw [sampling] at kept beside
    obtain ⟨retired, stamps, asked⟩ := kept.retire answers i _
    refine ⟨retired, fun k other => ?_, stamps.trans beside.stamps, beside.asked.trans asked⟩
    rw [(retire_same answers g' i _).2.2, Function.update_of_ne other]
    exact beside.slots k other

theorem Tracked.pollSlots (tracked : Tracked g) (l : List (Fin kSlots)) (now : Nat) :
    Tracked (pollSlots answers l now g).2 := by
  induction l generalizing g with
  | nil => exact tracked
  | cons i rest ih =>
    have kept := (tracked.pollSlot answers i now).1
    unfold GpuSpanState.pollSlots
    split
    · rename_i g' polling
      rw [polling] at kept
      exact ih kept
    · rename_i result g' polling
      rw [polling] at kept
      exact ih kept

theorem Tracked.poll (tracked : Tracked g) (now : Nat) (owner : GpuSpanOwner) :
    Tracked (g.poll answers now owner).2 := by
  unfold GpuSpanState.poll
  split
  · exact tracked
  · exact tracked.pollSlots answers _ now

theorem Tracked.perform (tracked : Tracked g) (inv : Inv g) (call : SpanCall)
    (fits : call.Fits g) : Tracked (g.perform answers call) := by
  cases call with
  | beginFrame sequence sourceFrame now owner =>
    exact tracked.beginFrame answers inv sequence sourceFrame now owner
  | beginApplicationFrame sequence sourceFrame now owner =>
    exact tracked.beginApplicationFrame answers inv sequence sourceFrame now owner
  | endApplicationSegment now owner => exact tracked.endApplicationSegment answers inv now owner
  | resumeApplicationSegment now owner =>
    exact tracked.resumeApplicationSegment answers inv now owner
  | finishApplicationFrame now owner => exact tracked.finishApplicationFrame answers inv now owner
  | beginEye eye now owner => exact tracked.beginEye answers inv fits
  | endEye eye now owner => exact tracked.endEye answers inv fits
  | finishFrame now owner => exact tracked.finishFrame answers inv fits
  | invalidateFrame now owner => exact tracked.invalidateFrame answers inv now owner
  | poll now owner => exact tracked.poll answers now owner
  | shutdown now owner => exact tracked.shutdown answers inv now owner

theorem Tracked.run (tracked : Tracked g) (inv : Inv g) (calls : List SpanCall)
    (fitting : Fitting answers g calls) : Tracked (g.run answers calls) := by
  induction calls generalizing g with
  | nil => exact tracked
  | cons call rest ih =>
    exact ih (tracked.perform answers inv call fitting.1) (inv.perform answers call) fitting.2

end GpuSpanState

theorem segmentTicks_congr {t t' : Nat → Nat} {l : List Nat} (sum previousEnd : Nat)
    (same : ∀ n ∈ l, t' (2 * n) = t (2 * n) ∧ t' (2 * n + 1) = t (2 * n + 1)) :
    segmentTicks t' l sum previousEnd = segmentTicks t l sum previousEnd := by
  induction l generalizing sum previousEnd with
  | nil => rfl
  | cons n rest ih =>
    obtain ⟨start, stop⟩ := same n List.mem_cons_self
    unfold segmentTicks
    dsimp only
    rw [start, stop, ih _ _ fun k member => same k (List.mem_cons_of_mem n member)]

theorem validateApplication_congr {s : Slot} {raw raw' : GpuSpanRawSample}
    (disjoint : raw'.disjoint = raw.disjoint) (frequency : raw'.frequency = raw.frequency)
    (ticks : ∀ k, k < 2 * s.segmentCount → raw'.ticks k = raw.ticks k) :
    validateApplication s raw' = validateApplication s raw := by
  unfold validateApplication
  rw [disjoint, frequency, segmentTicks_congr 0 0 fun n member => ?_]
  have below := List.mem_range.mp member
  exact ⟨ticks _ (by omega), ticks _ (by omega)⟩

theorem validate_congr {s : Slot} {raw raw' : GpuSpanRawSample}
    (disjoint : raw'.disjoint = raw.disjoint) (frequency : raw'.frequency = raw.frequency)
    (two : ∀ eye ∈ s.order, eye ≤ 1) (ticks : ∀ k, k ≤ 5 → raw'.ticks k = raw.ticks k) :
    validate s raw' = validate s raw := by
  unfold validate
  rw [disjoint, frequency]
  split
  · rfl
  split
  · rfl
  dsimp only
  split
  · rename_i first second order
    have low : first ≤ 1 := two first (by rw [order]; simp)
    have high : second ≤ 1 := two second (by rw [order]; simp)
    have eyes : ([0, 1].any fun eye => decide (raw'.ticks (2 + 2 * eye + 1) < raw'.ticks (2 + 2 * eye) ∨
        raw'.ticks (2 + 2 * eye) < raw.ticks 0 ∨ raw.ticks 1 < raw'.ticks (2 + 2 * eye + 1))) =
        [0, 1].any fun eye => decide (raw.ticks (2 + 2 * eye + 1) < raw.ticks (2 + 2 * eye) ∨
          raw.ticks (2 + 2 * eye) < raw.ticks 0 ∨ raw.ticks 1 < raw.ticks (2 + 2 * eye + 1)) := by
      simp [ticks]
    rw [ticks 0 (by omega), ticks 1 (by omega), ticks (2 + 2 * second) (by omega),
      ticks (3 + 2 * first) (by omega), eyes]
  · rfl

namespace GpuSpanState

variable {g : GpuSpanState} {i : Fin kSlots}

variable {s : Slot} {raw : GpuSpanRawSample} {now : Nat}

theorem resultOf_valid {reason : GpuSpanReason}
    (valid : (resultOf s reason raw now).reason = .valid) : reason = .valid := by
  unfold resultOf at valid
  split at valid
  · split at valid
    · assumption
    · exact valid
  · split at valid
    · assumption
    · exact valid

theorem resultOf_source (s : Slot) (reason : GpuSpanReason) (raw : GpuSpanRawSample) (now : Nat) :
    (resultOf s reason raw now).source =
      if s.application then .applicationRender else .renderToSubmit := by
  unfold resultOf
  dsimp only
  split
  · split <;> rfl
  · split <;> rfl

theorem verdict_valid (valid : verdict s raw = .valid) :
    s.reason = .valid ∧ (s.application = false → validate s raw = .valid) := by
  unfold verdict at valid
  split at valid
  · rename_i both
    exact ⟨both.1, fun _ => valid⟩
  · rename_i other
    refine ⟨valid, fun frame => absurd ⟨valid, ?_⟩ other⟩
    rw [frame]
    exact nofun

theorem validate_valid (valid : validate s raw = .valid) :
    ∃ first second, s.order = [first, second] := by
  unfold validate at valid
  split at valid
  · cases valid
  split at valid
  · cases valid
  split at valid
  · rename_i first second order
    exact ⟨first, second, order⟩
  · cases valid

variable (answers : Nat → SpanAnswer)

variable {g' : GpuSpanState}

theorem sampled_some {reason : GpuSpanReason}
    (sampled : g.sampled answers i now = (some (reason, raw), g')) (valid : reason = .valid) :
    (g.slots i).state ≠ .failed ∧ raw = (answers g.asked).raw ∧
      reason = verdict (g.slots i) raw := by
  unfold GpuSpanState.sampled at sampled
  dsimp only at sampled
  split at sampled
  · cases sampled
    cases valid
  rename_i sound
  split at sampled
  · cases sampled
    cases valid
  unfold GpuSpanState.pollDriver at sampled
  dsimp only at sampled
  have live : (g.slots i).state ≠ .failed := fun failed => sound (by simp [failed])
  cases status : (answers g.asked).poll with
  | pending =>
    rw [status] at sampled
    cases sampled
  | failed =>
    rw [status] at sampled
    cases sampled
    cases valid
  | ready =>
    rw [status] at sampled
    dsimp only at sampled
    split at sampled
    · cases sampled
    split at sampled
    · rename_i both
      cases sampled
      exact ⟨live, rfl, (if_pos both).symm⟩
    · rename_i other
      cases sampled
      exact ⟨live, rfl, (if_neg other).symm⟩

theorem owned_application (application : (g.slots i).application = true)
    (taken : g.stamps i = segmentStamps (2 * (g.slots i).segmentCount))
    (asked : raw = (answers g.asked).raw) :
    Owned answers g i now (resultOf (g.slots i) (verdict (g.slots i) raw) raw now) := by
  refine ⟨⟨g.asked, Nat.le_refl _, fun raw' disjoint frequency ticks => ?_⟩, fun stamp member => ?_⟩
  · rw [← asked] at disjoint frequency ticks
    have same : validateApplication (g.slots i) raw' = validateApplication (g.slots i) raw := by
      refine validateApplication_congr disjoint frequency fun k below => ticks (k, .segment) ?_
      rw [taken]
      exact List.mem_map.mpr ⟨k, List.mem_range.mpr below, rfl⟩
    have judged (raw : GpuSpanRawSample) : verdict (g.slots i) raw = (g.slots i).reason := by
      simp [verdict, application]
    rw [judged, judged]
    unfold resultOf
    rw [same, frequency, application]
    rfl
  · rw [resultOf_source, application]
    rw [taken] at member
    obtain ⟨k, -, rfl⟩ := List.mem_map.mp member
    rfl

theorem mem_eyeStamps_none {eyes : List Nat} {stamp : Stamp} (member : stamp ∈ eyeStamps eyes none) :
    stamp.2 = .eye ∨ stamp.2 = .frame := by
  simp only [eyeStamps, Option.toList_none, List.map_nil, List.append_nil, List.mem_cons,
    List.mem_flatMap, List.not_mem_nil, or_false] at member
  obtain rfl | ⟨eye, -, rfl | rfl⟩ := member
  · exact .inr rfl
  · exact .inl rfl
  · exact .inl rfl

theorem owned_frame (frame : (g.slots i).application = false)
    (finished : (g.slots i).Finished (g.stamps i)) (valid : verdict (g.slots i) raw = .valid)
    (asked : raw = (answers g.asked).raw) :
    Owned answers g i now (resultOf (g.slots i) (verdict (g.slots i) raw) raw now) := by
  obtain ⟨taken, once, two⟩ := finished.frame frame
  obtain ⟨_, judged⟩ := verdict_valid valid
  obtain ⟨first, second, order⟩ := validate_valid (judged frame)
  have stamped (k : Nat) (few : k ≤ 5) : k ∈ (g.stamps i).map Prod.fst := by
    have low := two first (by rw [order]; simp)
    have high := two second (by rw [order]; simp)
    have apart : first ≠ second := by
      rw [order] at once
      simpa using once
    rw [taken, List.map_append, List.mem_append, Slot.mem_eyeStamps, order]
    simp only [List.mem_cons, List.not_mem_nil, or_false, List.map_cons, List.map_nil,
      exists_eq_or_imp, exists_eq_left]
    omega
  refine ⟨⟨g.asked, Nat.le_refl _, fun raw' disjoint frequency ticks => ?_⟩, fun stamp member => ?_⟩
  · rw [← asked] at disjoint frequency ticks
    have same (k : Nat) (few : k ≤ 5) : raw'.ticks k = raw.ticks k := by
      obtain ⟨stamp, member, index⟩ := List.mem_map.mp (stamped k few)
      rw [← index]
      exact ticks stamp member
    have verdicts : verdict (g.slots i) raw' = verdict (g.slots i) raw := by
      unfold verdict
      rw [validate_congr disjoint frequency two same]
    rw [verdicts]
    unfold resultOf
    rw [frame]
    rw [frequency, same 0 (by omega), same 1 (by omega), same 2 (by omega), same 3 (by omega),
      same 4 (by omega), same 5 (by omega)]
    rfl
  · rw [resultOf_source, frame]
    rw [taken] at member
    rcases List.mem_append.mp member with own | last
    · exact mem_eyeStamps_none own
    · rw [List.mem_singleton.mp last]
      exact .inr rfl

variable {result : GpuSpanResult}

theorem Tracked.pollSlot_owned (tracked : Tracked g)
    (polled : g.pollSlot answers i now = (some result, g')) (valid : result.reason = .valid) :
    Owned answers g i now result := by
  unfold GpuSpanState.pollSlot at polled
  dsimp only at polled
  split at polled
  · cases polled
  rename_i waits
  split at polled
  · cases polled
  rename_i reason raw told sampling
  cases polled
  obtain ⟨live, asked, judged⟩ := sampled_some answers sampling (resultOf_valid valid)
  have pending : (g.slots i).state = .pending := by
    by_contra other
    exact waits ⟨other, live⟩
  have known : verdict (g.slots i) raw = .valid := judged.symm.trans (resultOf_valid valid)
  have finished := (tracked.slots i).finished pending (verdict_valid known).1
  rw [judged]
  cases kind : (g.slots i).application with
  | true => exact owned_application answers kind (finished.application kind) asked
  | false => exact owned_frame answers kind finished known asked

theorem Owned.before {k : Fin kSlots} (beside : Beside g i g') (other : k ≠ i)
    (owned : Owned answers g' k now result) : Owned answers g k now result := by
  obtain ⟨⟨n, later, measured⟩, stampers⟩ := owned
  rw [beside.slots k other, beside.stamps] at measured
  rw [beside.stamps] at stampers
  exact ⟨⟨n, beside.asked.trans later, measured⟩, stampers⟩

theorem Tracked.pollSlots_owned (tracked : Tracked g) {l : List (Fin kSlots)} (once : l.Nodup)
    (member : (i, result) ∈ (GpuSpanState.pollSlots answers l now g).1)
    (valid : result.reason = .valid) : i ∈ l ∧ Owned answers g i now result := by
  induction l generalizing g with
  | nil => cases member
  | cons k rest ih =>
    obtain ⟨kept, beside⟩ := tracked.pollSlot answers k now
    obtain ⟨absent, once⟩ := List.nodup_cons.mp once
    have later {g' : GpuSpanState} (kept : Tracked g') (beside : Beside g k g')
        (member : (i, result) ∈ (GpuSpanState.pollSlots answers rest now g').1) :
        i ∈ k :: rest ∧ Owned answers g i now result := by
      obtain ⟨here, owned⟩ := ih kept once member
      have other : i ≠ k := by
        rintro rfl
        exact absent here
      exact ⟨List.mem_cons_of_mem k here, owned.before answers beside other⟩
    unfold GpuSpanState.pollSlots at member
    split at member
    · rename_i g' polling
      rw [polling] at kept beside
      exact later kept beside member
    · rename_i first g' polling
      rcases List.mem_cons.mp member with same | rest_
      · cases same
        exact ⟨List.mem_cons_self, tracked.pollSlot_owned answers polling valid⟩
      · rw [polling] at kept beside
        exact later kept beside rest_

/-- When every call finds a frame of its kind, no index is taken twice in a scope and
every valid result is computed from the timestamps its own frame has taken. -/
theorem fitting_measured_by_own_stamps (owner : GpuSpanOwner) (calls : List SpanCall)
    (fitting : Fitting answers (fresh owner) calls) :
    MeasuredByOwnStamps answers ((fresh owner).run answers calls) := by
  have tracked := (tracked_fresh owner).run answers (inv_fresh owner) calls fitting
  refine ⟨tracked.once, fun now asker i result member valid => ?_⟩
  unfold GpuSpanState.poll at member
  split at member
  · cases member
  · exact (tracked.pollSlots_owned answers (List.nodup_finRange kSlots) member valid).2

def steady (_ : Nat) : SpanAnswer :=
  { poll := .ready, raw := { timestampsReady := true, frequency := 1000, ticks := fun _ => 7 } }

def renderer : GpuSpanOwner :=
  { device := 1, context := 1, thread := 1 }

def bothKinds : List SpanCall :=
  [.beginApplicationFrame 1 1 0 renderer, .endApplicationSegment 0 renderer,
    .resumeApplicationSegment 0 renderer, .endApplicationSegment 0 renderer,
    .resumeApplicationSegment 0 renderer, .endApplicationSegment 0 renderer,
    .finishApplicationFrame 0 renderer, .beginFrame 2 2 0 renderer, .beginEye 0 0 renderer,
    .endEye 0 0 renderer, .beginEye 1 0 renderer, .endEye 1 0 renderer, .finishFrame 0 renderer]

theorem fitting_measured_both_kinds :
    MeasuredByOwnStamps steady ((fresh renderer).run steady bothKinds) ∧
    (((fresh renderer).run steady bothKinds).poll steady 5 renderer).1.map
      (fun found => (found.2.source, found.2.reason)) =
      [(.applicationRender, .valid), (.renderToSubmit, .valid)] := by
  exact ⟨fitting_measured_by_own_stamps steady renderer bothKinds (by decide +kernel),
    by decide +kernel⟩

theorem not_measured_of_taken_twice {first rest : List Issued} {again : Issued}
    (log : g.log = first ++ again :: rest)
    (taken : ¬stampProtocol.allows (stampProtocol.after (fun _ => []) first) again) :
    ¬MeasuredByOwnStamps answers g := by
  intro measured
  have once := measured.once
  rw [log] at once
  exact taken once.allows_at

def eyeInApplication : List SpanCall :=
  [.beginApplicationFrame 1 1 0 renderer, .beginEye 0 0 renderer, .endApplicationSegment 0 renderer,
    .resumeApplicationSegment 0 renderer, .endApplicationSegment 0 renderer,
    .resumeApplicationSegment 0 renderer, .endApplicationSegment 0 renderer,
    .finishApplicationFrame 0 renderer]

/-- The second segment starts at the index the eye has taken, and the result is valid. -/
theorem eye_stamps_application_frame :
    ¬MeasuredByOwnStamps steady ((fresh renderer).run steady eyeInApplication) ∧
    (((fresh renderer).run steady eyeInApplication).poll steady 5 renderer).1.map
      (fun found => (found.2.source, found.2.reason)) = [(.applicationRender, .valid)] ∧
    ((fresh renderer).run steady eyeInApplication).stamps ⟨0, by decide⟩ =
      [(0, .segment), (2, .eye), (1, .segment), (2, .segment), (3, .segment), (4, .segment),
        (5, .segment)] := by
  have log : ((fresh renderer).run steady eyeInApplication).log =
      ([⟨.create ⟨0, by decide⟩ true, .frame⟩, ⟨.begins ⟨0, by decide⟩ true, .frame⟩,
        ⟨.timestamp ⟨0, by decide⟩ 0 true, .segment⟩, ⟨.timestamp ⟨0, by decide⟩ 2 true, .eye⟩,
        ⟨.timestamp ⟨0, by decide⟩ 1 true, .segment⟩] : List Issued) ++
      (⟨.timestamp ⟨0, by decide⟩ 2 true, .segment⟩ : Issued) ::
      [⟨.timestamp ⟨0, by decide⟩ 3 true, .segment⟩, ⟨.timestamp ⟨0, by decide⟩ 4 true, .segment⟩,
        ⟨.timestamp ⟨0, by decide⟩ 5 true, .segment⟩, ⟨.ends ⟨0, by decide⟩ true, .frame⟩] := by
    decide +kernel
  exact ⟨not_measured_of_taken_twice steady log fun unused => unused (by decide +kernel),
    by decide +kernel, by decide +kernel⟩

end GpuSpanState

end EdvrPatch.Gpu
