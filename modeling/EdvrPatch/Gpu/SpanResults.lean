import EdvrPatch.Gpu.SpanStamps
import EdvrPatch.Lib.Traced

/-! What becomes of the frames the instrument accepts: each gives one result at most, under
its own sequence and source frame, and the times of a valid one are sums of stamps that
were in order. -/
namespace EdvrPatch.Gpu

open Lib

structure AcceptedFrame where
  sequence : Nat
  sourceFrame : Nat
  source : GpuSpanSource
  deriving DecidableEq, Repr

inductive SpanEntry where
  | accepted (frame : AcceptedFrame)
  | result (slot : Fin kSlots) (result : GpuSpanResult)
  deriving DecidableEq, Repr

def SpanEntry.acceptedFrame : SpanEntry → Option AcceptedFrame
  | .accepted frame => some frame
  | .result _ _ => none

def SpanEntry.spanResult : SpanEntry → Option GpuSpanResult
  | .accepted _ => none
  | .result _ told => some told

def acceptedFrames (log : List SpanEntry) : List AcceptedFrame :=
  log.filterMap SpanEntry.acceptedFrame

def spanResults (log : List SpanEntry) : List GpuSpanResult :=
  log.filterMap SpanEntry.spanResult

def GpuSpanResult.frame (r : GpuSpanResult) : AcceptedFrame :=
  ⟨r.sequence, r.sourceFrame, r.source⟩

def Slot.frame (s : Slot) : AcceptedFrame :=
  ⟨s.sequence, s.sourceFrame, if s.application then .applicationRender else .renderToSubmit⟩

namespace GpuSpanState

section

variable (answers : Nat → SpanAnswer)

/-- A frame is accepted once it has a slot, whatever the driver makes of it then. -/
def accepts (g : GpuSpanState) (sequence sourceFrame now : Nat) (owner : GpuSpanOwner)
    (source : GpuSpanSource) : List SpanEntry :=
  match (g.enter answers sequence now owner).1 with
  | .ok _ => [.accepted ⟨sequence, sourceFrame, source⟩]
  | .error _ => []

/-- The frame a call has accepted, or the results it has handed out. -/
def entries (g : GpuSpanState) : SpanCall → List SpanEntry
  | .beginFrame sequence sourceFrame now owner =>
    g.accepts answers sequence sourceFrame now owner .renderToSubmit
  | .beginApplicationFrame sequence sourceFrame now owner =>
    g.accepts answers sequence sourceFrame now owner .applicationRender
  | .poll now owner => (g.poll answers now owner).1.map fun r => .result r.1 r.2
  | _ => []

/-- The instrument after the calls, and what was accepted and handed out. -/
def spanRun (owner : GpuSpanOwner) (calls : List SpanCall) : GpuSpanState × List SpanEntry :=
  traced (fun g call => (g.perform answers call, g.entries answers call)) (fresh owner) calls

end

end GpuSpanState

/-- The differences of an eye result are of stamps that do not decrease. -/
structure GpuSpanResult.EyeTimes (r : GpuSpanResult) (t : Nat → Nat) : Prop where
  outer : t 0 ≤ t 1 ∧ r.outerTicks = t 1 - t 0
  left : t 2 ≤ t 3 ∧ r.leftTicks = t 3 - t 2
  right : t 4 ≤ t 5 ∧ r.rightTicks = t 5 - t 4
  within : r.leftTicks + r.rightTicks ≤ r.outerTicks

/-- The widths of the segments, each between stamps that do not decrease, have a sum of 64
bits. -/
structure GpuSpanResult.SegmentTimes (r : GpuSpanResult) (t : Nat → Nat) (count : Nat) : Prop where
  few : 3 ≤ count ∧ count ≤ 4
  ordered : ∀ n < count, t (2 * n) ≤ t (2 * n + 1)
  sum : r.outerTicks = ((List.range count).map fun n => t (2 * n + 1) - t (2 * n)).sum
  fits : r.outerTicks ≤ uint64Max

structure GpuSpanResult.Timed (answers : Nat → SpanAnswer) (r : GpuSpanResult) : Prop where
  blank : r.reason ≠ .valid → r.outerTicks = 0 ∧ r.leftTicks = 0 ∧ r.rightTicks = 0
  eyes : r.reason = .valid → r.source = .renderToSubmit → ∃ n, r.EyeTimes (answers n).raw.ticks
  segments : r.reason = .valid → r.source = .applicationRender → ∃ n count,
    r.SegmentTimes (answers n).raw.ticks count

def Words (answers : Nat → SpanAnswer) : Prop :=
  ∀ n k, (answers n).raw.ticks k ≤ uint64Max

def Slot.TwoEyes (s : Slot) : Prop := ∀ eye ∈ s.order, eye ≤ 1

structure Slot.Same (s s' : Slot) : Prop where
  free : s'.state = .free ↔ s.state = .free
  frame : s.state ≠ .free → s'.frame = s.frame
  eyes : s.TwoEyes → s'.TwoEyes

theorem Slot.Same.refl (s : Slot) : s.Same s := ⟨Iff.rfl, fun _ => rfl, id⟩

theorem Slot.Same.trans {a b c : Slot} (first : a.Same b) (second : b.Same c) : a.Same c where
  free := second.free.trans first.free
  frame := fun held => (second.frame fun free => held (first.free.mp free)).trans (first.frame held)
  eyes := fun two => second.eyes (first.eyes two)

structure Kept (g g' : GpuSpanState) : Prop where
  slots : ∀ i, (g.slots i).Same (g'.slots i)
  lastSequence : g'.lastSequence = g.lastSequence

namespace Kept

variable {g g' g'' : GpuSpanState} {i : Fin kSlots}

theorem refl (g : GpuSpanState) : Kept g g := ⟨fun _ => .refl _, rfl⟩

theorem trans (first : Kept g g') (second : Kept g' g'') : Kept g g'' :=
  ⟨fun i => (first.slots i).trans (second.slots i),
    second.lastSequence.trans first.lastSequence⟩

theorem setSlot {s : Slot} (same : (g.slots i).Same s) : Kept g (g.setSlot i s) := by
  refine ⟨fun k => ?_, rfl⟩
  change (g.slots k).Same (Function.update g.slots i s k)
  by_cases here : k = i
  · subst here
    rw [Function.update_self]
    exact same
  · rw [Function.update_of_ne here]
    exact .refl _

theorem fill {s : Slot} (held : (g.slots i).state ≠ .free) (live : s.state ≠ .free)
    (frame : s.frame = (g.slots i).frame) (eyes : (g.slots i).TwoEyes → s.TwoEyes) :
    Kept g (g.setSlot i s) :=
  .setSlot ⟨⟨fun free => absurd free live, fun free => absurd free held⟩, fun _ => frame, eyes⟩

variable (answers : Nat → SpanAnswer)

theorem issue (g : GpuSpanState) (call : Bool → QueryCall kSlots) (stamper : Stamper) :
    Kept g (g.issue answers call stamper).2 := ⟨fun _ => .refl _, rfl⟩

theorem settle (held : (g.slots i).state ≠ .free) (ended : Bool) (reason : GpuSpanReason)
    (now : Nat) : Kept g (g.settle i ended reason now).2 := by
  have filled := fill (s := { g.slots i with reason := reason, closedAtMs := now, state := .pending })
    held nofun rfl id
  exact ⟨filled.slots, filled.lastSequence⟩

theorem ends (held : (g.slots i).state ≠ .free) (ended : Bool) (reason : GpuSpanReason)
    (now : Nat) : Kept g ((g.endScope answers i).2.settle i ended reason now).2 :=
  (issue answers g _ _).trans (settle (g := (g.endScope answers i).2) held ended reason now)

theorem close (held : (g.slots i).state ≠ .free) (reason : GpuSpanReason) (now : Nat) :
    Kept g (g.close answers i reason now).2 :=
  (issue answers g _ _).trans (ends (g := (g.timestamp answers i 1 .frame).2) answers held _ _ now)

theorem closeSegment (held : (g.slots i).state ≠ .free) :
    Kept g (g.closeSegment answers i).2 := by
  unfold GpuSpanState.closeSegment
  dsimp only
  split
  · split
    · exact (issue answers g _ _).trans (fill (g := (g.timestamp answers i _ _).2) held held rfl id)
    · exact fill held held rfl id
  · exact refl g

theorem closeApplication (held : (g.slots i).state ≠ .free) (reason : GpuSpanReason) (now : Nat) :
    Kept g (g.closeApplication answers i reason now).2 := by
  have closed := closeSegment answers held
  refine closed.trans ?_
  exact ends (g := (g.closeSegment answers i).2) answers
    (fun free => held ((closed.slots i).free.mp free)) _ _ now

theorem closeOpen (inv : GpuSpanState.Inv g) (reason : GpuSpanReason) (now : Nat) :
    Kept g (g.closeOpen answers reason now) := by
  unfold GpuSpanState.closeOpen
  split
  · exact refl g
  rename_i i active
  have held : (g.slots i).state ≠ .free := by
    rw [(inv.slots i).opened.mpr active]
    decide
  split
  · exact closeApplication answers held reason now
  · exact close answers held reason now

theorem onOpen (inv : GpuSpanState.Inv g) (owner : GpuSpanOwner)
    (act : Fin kSlots → GpuSpanReason × GpuSpanState)
    (kept : ∀ i, g.opened = some i → (g.slots i).state = .opened → Kept g (act i).2) :
    Kept g (g.onOpen owner act).2 := by
  unfold GpuSpanState.onOpen
  dsimp only
  split
  · exact refl g
  split
  · exact refl g
  · rename_i i active
    exact kept i active ((inv.slots i).opened.mpr active)

theorem stamps (held : (g.slots i).state ≠ .free) (index : Nat) (stamper : Stamper)
    {fails : GpuSpanState → GpuSpanReason × GpuSpanState} {s : Slot → Slot}
    (closes : ∀ g' : GpuSpanState, (g'.slots i).state ≠ .free → Kept g' (fails g').2)
    (live : ∀ slot, (s slot).state = slot.state) (frame : ∀ slot, (s slot).frame = slot.frame)
    (eyes : (g.slots i).TwoEyes → (s (g.slots i)).TwoEyes) :
    Kept g (match g.timestamp answers i index stamper with
      | (false, g) => fails g
      | (true, g) => (GpuSpanReason.valid, g.setSlot i (s (g.slots i)))).2 := by
  have stamped := issue answers g (.timestamp i index) stamper
  split
  · rename_i g' stamping
    obtain rfl := congrArg Prod.snd stamping
    exact stamped.trans (closes _ held)
  · rename_i g' stamping
    obtain rfl := congrArg Prod.snd stamping
    exact stamped.trans (fill held ((live _).trans_ne held) (frame _) eyes)

theorem endApplicationSegment (inv : GpuSpanState.Inv g) (now : Nat) (owner : GpuSpanOwner) :
    Kept g (g.endApplicationSegment answers now owner).2 := by
  refine onOpen inv owner _ fun i _ opened => ?_
  have held : (g.slots i).state ≠ .free := by
    rw [opened]
    decide
  dsimp only
  split
  · exact closeApplication answers held .incomplete now
  · exact stamps answers held _ .segment
      (fun g' held => closeApplication answers held .driverFailure now)
      (s := fun slot => { slot with segmentOpen := false }) (fun _ => rfl) (fun _ => rfl) id

theorem resumeApplicationSegment (inv : GpuSpanState.Inv g) (now : Nat) (owner : GpuSpanOwner) :
    Kept g (g.resumeApplicationSegment answers now owner).2 := by
  refine onOpen inv owner _ fun i _ opened => ?_
  have held : (g.slots i).state ≠ .free := by
    rw [opened]
    decide
  dsimp only
  split
  · exact refl g
  · exact stamps answers held _ .segment
      (fun g' held => closeApplication answers held .driverFailure now)
      (s := fun slot =>
        { slot with segmentCount := (g.slots i).segmentCount + 1, segmentOpen := true })
      (fun _ => rfl) (fun _ => rfl) id

theorem finishApplicationFrame (inv : GpuSpanState.Inv g) (now : Nat) (owner : GpuSpanOwner) :
    Kept g (g.finishApplicationFrame answers now owner).2 := by
  refine onOpen inv owner _ fun i _ opened => ?_
  have held : (g.slots i).state ≠ .free := by
    rw [opened]
    decide
  dsimp only
  split
  · exact refl g
  split
  · exact closeApplication answers held .incomplete now
  · exact ends answers held _ _ now

theorem beginEye (inv : GpuSpanState.Inv g) (eye now : Nat) (owner : GpuSpanOwner) :
    Kept g (g.beginEye answers eye now owner).2 := by
  refine onOpen inv owner _ fun i _ opened => ?_
  have held : (g.slots i).state ≠ .free := by
    rw [opened]
    decide
  dsimp only
  split
  · exact close answers held .badPair now
  · rename_i lawful
    simp only [Bool.or_eq_true, decide_eq_true_eq, not_or, Nat.not_lt] at lawful
    refine stamps answers held _ .eye (fun g' held => close answers held .driverFailure now)
      (s := fun slot =>
        { slot with
          begun := (g.slots i).begun ||| 2 ^ eye
          activeEye := some eye
          order := (g.slots i).order ++ [eye] })
      (fun _ => rfl) (fun _ => rfl) fun two other mem => ?_
    rcases List.mem_append.mp mem with old | new
    · exact two other old
    · rw [List.mem_singleton.mp new]
      exact lawful.1.1

theorem endEye (inv : GpuSpanState.Inv g) (eye now : Nat) (owner : GpuSpanOwner) :
    Kept g (g.endEye answers eye now owner).2 := by
  refine onOpen inv owner _ fun i _ opened => ?_
  have held : (g.slots i).state ≠ .free := by
    rw [opened]
    decide
  dsimp only
  split
  · exact close answers held .badPair now
  · exact stamps answers held _ .eye (fun g' held => close answers held .driverFailure now)
      (s := fun slot =>
        { slot with ended := (g.slots i).ended ||| 2 ^ eye, activeEye := none })
      (fun _ => rfl) (fun _ => rfl) id

theorem finishFrame (inv : GpuSpanState.Inv g) (now : Nat) (owner : GpuSpanOwner) :
    Kept g (g.finishFrame answers now owner).2 := by
  refine onOpen inv owner _ fun i _ opened => ?_
  refine close answers ?_ _ now
  rw [opened]
  decide

theorem invalidateFrame (inv : GpuSpanState.Inv g) (now : Nat) (owner : GpuSpanOwner) :
    Kept g (g.invalidateFrame answers now owner).2 := by
  refine onOpen inv owner _ fun i _ opened => ?_
  have held : (g.slots i).state ≠ .free := by
    rw [opened]
    decide
  split
  · exact closeApplication answers held .incomplete now
  · exact close answers held .incomplete now

theorem takeSlot (g : GpuSpanState) :
    Kept g (g.takeSlot answers).2 ∧ ∀ i, (g.takeSlot answers).1 = .ok i →
      (g.slots i).state = .free := by
  unfold GpuSpanState.takeSlot
  split
  · exact ⟨refl g, nofun⟩
  rename_i i found
  have free : (g.slots i).state = .free := by simpa using List.find?_some found
  split
  · refine ⟨refl g, fun k same => ?_⟩
    cases same
    exact free
  split
  · rename_i g' creating
    obtain rfl := congrArg Prod.snd creating
    exact ⟨issue answers g _ _, nofun⟩
  · rename_i g' creating
    obtain rfl := congrArg Prod.snd creating
    refine ⟨(issue answers g _ _).trans (setSlot ⟨Iff.rfl, fun _ => rfl, id⟩), fun k same => ?_⟩
    cases same
    exact free

end Kept

/-- One slot was free and now holds a frame; the others hold what they held. -/
structure Placed (g g' : GpuSpanState) (i : Fin kSlots) (a : AcceptedFrame) : Prop where
  held : (g'.slots i).state ≠ .free
  frame : (g'.slots i).frame = a
  eyes : (g'.slots i).TwoEyes
  others : ∀ k, k ≠ i → (g.slots k).Same (g'.slots k)
  lastSequence : g'.lastSequence = g.lastSequence

section

variable {g g' g'' : GpuSpanState} {i : Fin kSlots} {a : AcceptedFrame}

theorem Placed.kept (placed : Placed g g' i a) (kept : Kept g' g'') : Placed g g'' i a where
  held := fun free => placed.held ((kept.slots i).free.mp free)
  frame := ((kept.slots i).frame placed.held).trans placed.frame
  eyes := (kept.slots i).eyes placed.eyes
  others := fun k other => (placed.others k other).trans (kept.slots k)
  lastSequence := kept.lastSequence.trans placed.lastSequence

variable {s : Slot}

theorem Placed.fill (g : GpuSpanState) (held : s.state ≠ .free) (frame : s.frame = a)
    (eyes : s.TwoEyes) : Placed g (g.setSlot i s) i a := by
  have here : (g.setSlot i s).slots i = s := Function.update_self ..
  refine ⟨?_, ?_, ?_, fun k other => ?_, rfl⟩
  · rw [here]
    exact held
  · rw [here]
    exact frame
  · rw [here]
    exact eyes
  rw [show (g.setSlot i s).slots k = g.slots k from Function.update_of_ne other ..]
  exact .refl _

variable (answers : Nat → SpanAnswer)

theorem enter_kept (inv : GpuSpanState.Inv g) (sequence now : Nat) (owner : GpuSpanOwner) :
    (∃ why, g.enter answers sequence now owner = (.error why, g)) ∨
      g.lastSequence < sequence ∧
      Kept { g with lastSequence := sequence } (g.enter answers sequence now owner).2 ∧
      ∀ i, (g.enter answers sequence now owner).1 = .ok i →
        ((g.enter answers sequence now owner).2.slots i).state = .free := by
  unfold GpuSpanState.enter
  dsimp only
  split
  · exact .inl ⟨_, rfl⟩
  split
  · exact .inl ⟨_, rfl⟩
  rename_i fresh
  refine .inr ⟨Nat.lt_of_not_le (not_or.mp fresh).2, ?_⟩
  have closed := Kept.closeOpen answers (inv.lastSequence sequence) .incomplete now
  split
  · exact ⟨closed, nofun⟩
  · obtain ⟨taken, free⟩ := Kept.takeSlot answers
      ({ g with lastSequence := sequence }.closeOpen answers .incomplete now)
    exact ⟨closed.trans taken, fun i found => (taken.slots i).free.mpr (free i found)⟩

/-- What a call that begins a frame does: it is turned away, or it consumes its sequence and
gives the frame a slot or none. -/
structure Began (g : GpuSpanState) (sequence : Nat) (entries : List SpanEntry) (a : AcceptedFrame)
    (g' : GpuSpanState) : Prop where
  cases : entries = [] ∧ (g' = g ∨
      g.lastSequence < sequence ∧ Kept { g with lastSequence := sequence } g') ∨
    entries = [.accepted a] ∧ g.lastSequence < sequence ∧
      ∃ i, (g.slots i).state = .free ∧ Placed { g with lastSequence := sequence } g' i a

theorem Placed.after (kept : Kept g g') (placed : Placed g' g'' i a) : Placed g g'' i a :=
  { placed with
    others := fun k other => (kept.slots k).trans (placed.others k other)
    lastSequence := placed.lastSequence.trans kept.lastSequence }

theorem placed_begins (free : (g.slots i).state = .free) (quiet : s.state = .free)
    (unordered : s.order = []) (frame : s.frame = a) (now : Nat)
    {opens : GpuSpanState → GpuSpanReason × GpuSpanState}
    (opened : ∀ g : GpuSpanState, g.slots i = s → Placed g (opens g).2 i a) :
    Placed g (match (g.setSlot i s).beginScope answers i with
      | (false, g) => g.beginFailed i now
      | (true, g) => opens g).2 i a := by
  have eyes : s.TwoEyes := by
    intro eye mem
    rw [unordered] at mem
    cases mem
  have here : (g.setSlot i s).slots i = s := Function.update_self ..
  have filled : Kept g (g.setSlot i s) := .setSlot
    ⟨⟨fun _ => free, fun _ => quiet⟩, fun held => absurd free held, fun _ => eyes⟩
  have begun := filled.trans (Kept.issue answers (g.setSlot i s) (.begins i) .frame)
  split
  · rename_i g' beginning
    obtain rfl := congrArg Prod.snd beginning
    refine Placed.after begun (Placed.fill _ nofun ?_ ?_)
    · exact (congrArg Slot.frame here).trans frame
    · exact here.symm ▸ eyes
  · rename_i g' beginning
    obtain rfl := congrArg Prod.snd beginning
    exact Placed.after begun (opened _ here)

theorem placed_stamps (held : s.state ≠ .free) (unordered : s.order = []) (frame : s.frame = a)
    (g : GpuSpanState) (index : Nat) (stamper : Stamper)
    {fails passes : GpuSpanState → GpuSpanReason × GpuSpanState}
    (closes : ∀ g : GpuSpanState, (g.slots i).state ≠ .free → Kept g (fails g).2)
    (goes : ∀ g : GpuSpanState, (g.slots i).state ≠ .free → Kept g (passes g).2) :
    Placed g (match ({ g.setSlot i s with opened := some i } : GpuSpanState).timestamp answers i
        index stamper with
      | (false, g) => fails g
      | (true, g) => passes g).2 i a := by
  have eyes : s.TwoEyes := by
    intro eye mem
    rw [unordered] at mem
    cases mem
  have filled : Placed g (g.setSlot i s) i a := .fill g held frame eyes
  have opened : Kept (g.setSlot i s) { g.setSlot i s with opened := some i } :=
    ⟨fun _ => .refl _, rfl⟩
  have stamped := (filled.kept opened).kept
    (Kept.issue answers { g.setSlot i s with opened := some i } (.timestamp i index) stamper)
  split
  · rename_i g' stamping
    obtain rfl := congrArg Prod.snd stamping
    exact stamped.kept (closes _ stamped.held)
  · rename_i g' stamping
    obtain rfl := congrArg Prod.snd stamping
    exact stamped.kept (goes _ stamped.held)

theorem beginFrame_began (inv : GpuSpanState.Inv g) (sequence sourceFrame now : Nat)
    (owner : GpuSpanOwner) :
    Began g sequence (g.accepts answers sequence sourceFrame now owner .renderToSubmit)
      ⟨sequence, sourceFrame, .renderToSubmit⟩
      (g.beginFrame answers sequence sourceFrame now owner).2 := by
  have entered := enter_kept answers inv sequence now owner
  have ready := (inv.enter answers sequence now owner).2
  unfold GpuSpanState.accepts GpuSpanState.beginFrame
  cases entering : g.enter answers sequence now owner with
  | mk slot g₁ =>
  rw [entering] at entered ready
  cases slot with
  | error why =>
    refine ⟨.inl ⟨rfl, ?_⟩⟩
    rcases entered with ⟨_, same⟩ | ⟨later, kept, -⟩
    · exact .inl (congrArg Prod.snd same)
    · exact .inr ⟨later, kept⟩
  | ok i =>
    rcases entered with ⟨_, same⟩ | ⟨later, kept, free⟩
    · cases same
    have blank := (ready i rfl).blank
    refine ⟨.inr ⟨rfl, later, i, (kept.slots i).free.mp (free i rfl), .after kept ?_⟩⟩
    dsimp only at blank ⊢
    rw [blank]
    refine placed_begins answers (free i rfl) rfl rfl rfl now fun g here => ?_
    dsimp only
    rw [here]
    refine placed_stamps answers ?_ rfl rfl g 0 .frame ?_ ?_
    · exact nofun
    · exact fun g held => .close answers held .driverFailure now
    · exact fun g _ => .refl g

theorem beginApplicationFrame_began (inv : GpuSpanState.Inv g) (sequence sourceFrame now : Nat)
    (owner : GpuSpanOwner) :
    Began g sequence (g.accepts answers sequence sourceFrame now owner .applicationRender)
      ⟨sequence, sourceFrame, .applicationRender⟩
      (g.beginApplicationFrame answers sequence sourceFrame now owner).2 := by
  have entered := enter_kept answers inv sequence now owner
  unfold GpuSpanState.accepts GpuSpanState.beginApplicationFrame
  cases entering : g.enter answers sequence now owner with
  | mk slot g₁ =>
  rw [entering] at entered
  cases slot with
  | error why =>
    refine ⟨.inl ⟨rfl, ?_⟩⟩
    rcases entered with ⟨_, same⟩ | ⟨later, kept, -⟩
    · exact .inl (congrArg Prod.snd same)
    · exact .inr ⟨later, kept⟩
  | ok i =>
    rcases entered with ⟨_, same⟩ | ⟨later, kept, free⟩
    · cases same
    refine ⟨.inr ⟨rfl, later, i, (kept.slots i).free.mp (free i rfl), .after kept ?_⟩⟩
    refine placed_begins answers (free i rfl) rfl rfl rfl now fun g here => ?_
    dsimp only
    rw [here]
    refine placed_stamps answers ?_ rfl rfl g 0 .segment ?_ ?_
    · exact nofun
    · exact fun g held => .closeApplication answers held .driverFailure now
    · exact fun g held => .fill held held rfl id

structure Emptied (g g' : GpuSpanState) (i : Fin kSlots) : Prop where
  free : (g'.slots i).state = .free
  eyes : (g'.slots i).TwoEyes
  others : ∀ k, k ≠ i → (g.slots k).Same (g'.slots k)
  lastSequence : g'.lastSequence = g.lastSequence

theorem Emptied.after (kept : Kept g g') (emptied : Emptied g' g'' i) : Emptied g g'' i :=
  { emptied with
    others := fun k other => (kept.slots k).trans (emptied.others k other)
    lastSequence := emptied.lastSequence.trans kept.lastSequence }

theorem retire_emptied (g : GpuSpanState) (i : Fin kSlots) (destroys : Bool) :
    Emptied g (g.retire answers i destroys) i := by
  have lastSequence : (g.retire answers i destroys).lastSequence = g.lastSequence := by
    unfold GpuSpanState.retire
    dsimp only
    split <;> rfl
  obtain ⟨-, -, slots⟩ := GpuSpanState.retire_same answers g i destroys
  refine ⟨?_, ?_, fun k other => ?_, lastSequence⟩
  · rw [slots, Function.update_self]
  · rw [slots, Function.update_self]
    exact fun _ mem => nomatch mem
  · rw [slots, Function.update_of_ne other]
    exact .refl _

theorem sampled_kept (g : GpuSpanState) (i : Fin kSlots) (now : Nat) :
    Kept g (g.sampled answers i now).2 := by
  have asked := Kept.issue answers g (fun _ => .poll i) .frame
  unfold GpuSpanState.sampled
  dsimp only
  split
  · exact .refl g
  split
  · exact .refl g
  unfold GpuSpanState.pollDriver
  cases (answers g.asked).poll with
  | pending => exact asked
  | failed => exact asked
  | ready =>
    dsimp only
    split
    · exact asked
    split
    · exact asked
    · exact asked

variable {raw : GpuSpanRawSample}

theorem validate_times (two : s.TwoEyes) (valid : validate s raw = .valid) {r : GpuSpanResult}
    (outer : r.outerTicks = raw.ticks 1 - raw.ticks 0)
    (left : r.leftTicks = raw.ticks 3 - raw.ticks 2)
    (right : r.rightTicks = raw.ticks 5 - raw.ticks 4) : r.EyeTimes raw.ticks := by
  unfold validate at valid
  split at valid
  · cases valid
  split at valid
  · cases valid
  dsimp only at valid
  split at valid
  case h_2 => cases valid
  rename_i first second order
  split at valid
  · cases valid
  rename_i whole
  split at valid
  · cases valid
  rename_i inside
  split at valid
  · cases valid
  rename_i apart
  have spans := Nat.not_lt.mp (not_or.mp whole).2
  simp only [List.any_cons, List.any_nil, Bool.or_false, Bool.or_eq_true, decide_eq_true_eq,
    not_or, Nat.not_lt, Nat.reduceMul, Nat.reduceAdd] at inside
  obtain ⟨⟨leftSpan, leftIn, leftOut⟩, rightSpan, rightIn, rightOut⟩ := inside
  rw [Nat.not_lt] at apart
  have lowFirst : first ≤ 1 := two first (by rw [order]; simp)
  have lowSecond : second ≤ 1 := two second (by rw [order]; simp)
  refine ⟨⟨spans, outer⟩, ⟨leftSpan, left⟩, ⟨rightSpan, right⟩, ?_⟩
  -- An eye is the left or the right one, and the first has ended before the second begins.
  rcases Nat.le_one_iff_eq_zero_or_eq_one.mp lowFirst with rfl | rfl
  · rcases Nat.le_one_iff_eq_zero_or_eq_one.mp lowSecond with rfl | rfl
    · have apart : raw.ticks 3 ≤ raw.ticks 2 := apart
      omega
    · have apart : raw.ticks 3 ≤ raw.ticks 4 := apart
      omega
  · rcases Nat.le_one_iff_eq_zero_or_eq_one.mp lowSecond with rfl | rfl
    · have apart : raw.ticks 5 ≤ raw.ticks 2 := apart
      omega
    · have apart : raw.ticks 5 ≤ raw.ticks 4 := apart
      omega

theorem segmentTicks_some {t : Nat → Nat} (words : ∀ k, t k ≤ uint64Max) {l : List Nat}
    {sum previousEnd total : Nat} (fits : sum ≤ uint64Max)
    (summed : segmentTicks t l sum previousEnd = some total) :
    (∀ n ∈ l, t (2 * n) ≤ t (2 * n + 1)) ∧
      total = sum + (l.map fun n => t (2 * n + 1) - t (2 * n)).sum ∧ total ≤ uint64Max := by
  induction l generalizing sum previousEnd with
  | nil =>
    cases summed
    exact ⟨fun _ mem => (nomatch mem), rfl, fits⟩
  | cons n rest ih =>
    unfold segmentTicks at summed
    dsimp only at summed
    split at summed
    · cases summed
    rename_i inOrder
    split at summed
    · cases summed
    rename_i room
    have span := Nat.not_lt.mp (not_or.mp inOrder).1
    have word := words (2 * n + 1)
    obtain ⟨spans, isTotal, fits⟩ := ih (by omega) summed
    refine ⟨fun m mem => ?_, ?_, fits⟩
    · rcases List.mem_cons.mp mem with rfl | later
      · exact span
      · exact spans m later
    · rw [isTotal, List.map_cons, List.sum_cons, Nat.add_assoc]

theorem validateApplication_times (words : ∀ k, raw.ticks k ≤ uint64Max)
    (valid : (validateApplication s raw).1 = .valid) {r : GpuSpanResult}
    (outer : r.outerTicks = (validateApplication s raw).2) :
    r.SegmentTimes raw.ticks s.segmentCount := by
  unfold validateApplication at valid outer
  split at valid
  · cases valid
  rename_i joint
  rw [if_neg joint] at outer
  split at valid
  · cases valid
  rename_i counts
  rw [if_neg counts] at outer
  split at valid
  · cases valid
  rename_i few
  rw [if_neg few] at outer
  split at valid
  · cases valid
  rename_i ticks summed
  rw [summed] at outer
  obtain ⟨spans, total, fits⟩ := segmentTicks_some words (Nat.zero_le _) summed
  refine ⟨by omega, fun n below => spans n (List.mem_range.mpr below), ?_, ?_⟩
  · exact outer.trans (total.trans (Nat.zero_add _))
  · exact (show r.outerTicks = ticks from outer) ▸ fits

theorem validateApplication_blank (invalid : (validateApplication s raw).1 ≠ .valid) :
    (validateApplication s raw).2 = 0 := by
  unfold validateApplication at invalid ⊢
  split
  · rfl
  split
  · rfl
  split
  · rfl
  split
  · rfl
  · rename_i joint frequency few _ ticks summed
    rw [if_neg joint, if_neg frequency, if_neg few, summed] at invalid
    exact absurd rfl invalid

theorem resultOf_frame (s : Slot) (reason : GpuSpanReason) (raw : GpuSpanRawSample) (now : Nat) :
    (GpuSpanState.resultOf s reason raw now).frame = s.frame := by
  unfold GpuSpanResult.frame Slot.frame
  unfold GpuSpanState.resultOf
  split <;> split <;> rfl

theorem resultOf_timed (words : Words answers) (two : (g.slots i).TwoEyes) {now : Nat}
    {reason : GpuSpanReason} (sampled : g.sampled answers i now = (some (reason, raw), g')) :
    (GpuSpanState.resultOf (g.slots i) reason raw now).Timed answers := by
  have measured (valid : reason = .valid) :=
    GpuSpanState.sampled_some answers sampled valid
  have source := GpuSpanState.resultOf_source (g.slots i) reason raw now
  refine ⟨fun invalid => ?_, fun valid eyes => ?_, fun valid segments => ?_⟩
  · unfold GpuSpanState.resultOf at invalid ⊢
    split at invalid
    · rename_i application
      rw [if_pos application]
      split at invalid
      · rename_i valid
        rw [if_pos valid]
        exact ⟨validateApplication_blank invalid, rfl, rfl⟩
      · rename_i why
        rw [if_neg why]
        exact ⟨rfl, rfl, rfl⟩
    · rename_i frame
      rw [if_neg frame]
      split at invalid
      · exact absurd rfl invalid
      · rename_i why
        rw [if_neg why]
        exact ⟨rfl, rfl, rfl⟩
  · obtain ⟨-, asked, judged⟩ := measured (GpuSpanState.resultOf_valid valid)
    have frame : (g.slots i).application = false := by
      by_contra application
      rw [source, if_pos (Bool.not_eq_false _ ▸ application)] at eyes
      cases eyes
    have known : verdict (g.slots i) raw = .valid :=
      judged.symm.trans (GpuSpanState.resultOf_valid valid)
    refine ⟨g.asked, ?_⟩
    rw [← asked]
    refine validate_times two ((GpuSpanState.verdict_valid known).2 frame) ?_ ?_ ?_ <;>
      (unfold GpuSpanState.resultOf
       rw [GpuSpanState.resultOf_valid valid, frame]
       rfl)
  · obtain ⟨-, asked, judged⟩ := measured (GpuSpanState.resultOf_valid valid)
    have application : (g.slots i).application = true := by
      by_contra frame
      rw [source, if_neg frame] at segments
      cases segments
    refine ⟨g.asked, (g.slots i).segmentCount, ?_⟩
    rw [← asked]
    refine validateApplication_times (asked ▸ words g.asked) ?_ ?_
    · have isValid := valid
      unfold GpuSpanState.resultOf at isValid
      rw [GpuSpanState.resultOf_valid valid, application] at isValid
      exact isValid
    · unfold GpuSpanState.resultOf
      rw [GpuSpanState.resultOf_valid valid, application]
      rfl

theorem pollSlot_spec (words : Words answers) (i : Fin kSlots) (now : Nat)
    (two : (g.slots i).TwoEyes) :
    ((g.pollSlot answers i now).1 = none ∧ Kept g (g.pollSlot answers i now).2) ∨
      ∃ r, (g.pollSlot answers i now).1 = some r ∧ (g.slots i).state ≠ .free ∧
        r.frame = (g.slots i).frame ∧ r.Timed answers ∧ Emptied g (g.pollSlot answers i now).2 i := by
  unfold GpuSpanState.pollSlot
  dsimp only
  split
  · exact .inl ⟨rfl, .refl g⟩
  rename_i waits
  have kept := sampled_kept answers g i now
  split
  · rename_i g' sampling
    obtain rfl := congrArg Prod.snd sampling
    exact .inl ⟨rfl, kept⟩
  · rename_i reason raw g' sampling
    have timed := resultOf_timed answers words two sampling
    obtain rfl := congrArg Prod.snd sampling
    refine .inr ⟨_, rfl, fun free => waits ?_, resultOf_frame _ reason raw now, timed,
      .after kept (retire_emptied answers _ i _)⟩
    rw [free]
    decide

end

/-- What the instrument has accepted and handed out, and what it still holds. -/
structure Accounted (answers : Nat → SpanAnswer) (g : GpuSpanState) (log : List SpanEntry) :
    Prop where
  rising : ((acceptedFrames log).map (·.sequence)).Pairwise (· < ·)
  reached : ∀ a ∈ acceptedFrames log, a.sequence ≤ g.lastSequence
  held : ∀ i, (g.slots i).state ≠ .free → (g.slots i).frame ∈ acceptedFrames log ∧
    (g.slots i).sequence ∉ (spanResults log).map (·.sequence)
  apart : ∀ i k, i ≠ k → (g.slots i).state ≠ .free → (g.slots k).state ≠ .free →
    (g.slots i).sequence ≠ (g.slots k).sequence
  eyes : ∀ i, (g.slots i).TwoEyes
  results : ∀ r ∈ spanResults log, r.frame ∈ acceptedFrames log ∧ r.Timed answers
  once : ((spanResults log).map (·.sequence)).Nodup

namespace Accounted

variable {answers : Nat → SpanAnswer} {g g' : GpuSpanState} {log : List SpanEntry}
  {i : Fin kSlots} {a : AcceptedFrame}

theorem init (owner : GpuSpanOwner) : Accounted answers (GpuSpanState.fresh owner) [] where
  rising := .nil
  reached := fun _ mem => nomatch mem
  held := fun _ held => absurd rfl held
  apart := fun _ _ _ held => absurd rfl held
  eyes := fun _ _ mem => nomatch mem
  results := fun _ mem => nomatch mem
  once := .nil

theorem sequence_of_same {s s' : Slot} (same : s.Same s') (held : s'.state ≠ .free) :
    s.state ≠ .free ∧ s'.frame = s.frame ∧ s'.sequence = s.sequence := by
  have was : s.state ≠ .free := fun free => held (same.free.mpr free)
  exact ⟨was, same.frame was, congrArg AcceptedFrame.sequence (same.frame was)⟩

theorem kept (accounted : Accounted answers g log) (kept : ∀ i, (g.slots i).Same (g'.slots i))
    (later : g.lastSequence ≤ g'.lastSequence) : Accounted answers g' log where
  rising := accounted.rising
  reached := fun a mem => (accounted.reached a mem).trans later
  held := fun i held => by
    obtain ⟨was, frame, sequence⟩ := sequence_of_same (kept i) held
    rw [frame, sequence]
    exact accounted.held i was
  apart := fun i k other heldI heldK => by
    obtain ⟨wasI, -, sequenceI⟩ := sequence_of_same (kept i) heldI
    obtain ⟨wasK, -, sequenceK⟩ := sequence_of_same (kept k) heldK
    rw [sequenceI, sequenceK]
    exact accounted.apart i k other wasI wasK
  eyes := fun i => (kept i).eyes (accounted.eyes i)
  results := accounted.results
  once := accounted.once

theorem placed (accounted : Accounted answers g log) (later : g.lastSequence < a.sequence)
    (placed : Placed { g with lastSequence := a.sequence } g' i a) :
    Accounted answers g' (log ++ [SpanEntry.accepted a]) := by
  have frames : acceptedFrames (log ++ [SpanEntry.accepted a]) = acceptedFrames log ++ [a] := by
    rw [acceptedFrames, List.filterMap_append]
    rfl
  have results : spanResults (log ++ [SpanEntry.accepted a]) = spanResults log := by
    rw [spanResults, List.filterMap_append]
    exact List.append_nil _
  have isSequence : (g'.slots i).sequence = a.sequence :=
    congrArg AcceptedFrame.sequence placed.frame
  have before : ∀ k, k ≠ i → (g'.slots k).state ≠ .free → (g'.slots k).sequence < a.sequence := by
    intro k other held
    obtain ⟨was, -, sequence⟩ := sequence_of_same (placed.others k other) held
    rw [sequence]
    exact (accounted.reached _ (accounted.held k was).1).trans_lt later
  refine ⟨?_, ?_, ?_, ?_, ?_, ?_, ?_⟩
  · rw [frames, List.map_append, List.pairwise_append]
    refine ⟨accounted.rising, List.pairwise_singleton .., fun old isOld new isNew => ?_⟩
    obtain ⟨b, mem, rfl⟩ := List.mem_map.mp isOld
    rw [List.mem_singleton.mp isNew]
    exact (accounted.reached b mem).trans_lt later
  · rw [frames, placed.lastSequence]
    intro b mem
    rcases List.mem_append.mp mem with old | new
    · exact (accounted.reached b old).trans later.le
    · rw [List.mem_singleton.mp new]
  · rw [frames, results]
    intro k held
    by_cases here : k = i
    · subst here
      rw [placed.frame, isSequence]
      refine ⟨List.mem_append_right _ (List.mem_singleton.mpr rfl), fun mem => ?_⟩
      obtain ⟨r, isResult, same⟩ := List.mem_map.mp mem
      have := accounted.reached _ (accounted.results r isResult).1
      exact absurd (same ▸ this : a.sequence ≤ _) (Nat.not_le.mpr later)
    · obtain ⟨was, frame, sequence⟩ := sequence_of_same (placed.others k here) held
      rw [frame, sequence]
      exact (accounted.held k was).imp_left fun mem => List.mem_append_left _ mem
  · intro j k other heldJ heldK
    by_cases here : j = i
    · subst here
      rw [isSequence]
      exact (before k other.symm heldK).ne'
    by_cases there : k = i
    · subst there
      rw [isSequence]
      exact (before j here heldJ).ne
    obtain ⟨wasJ, -, sequenceJ⟩ := sequence_of_same (placed.others j here) heldJ
    obtain ⟨wasK, -, sequenceK⟩ := sequence_of_same (placed.others k there) heldK
    rw [sequenceJ, sequenceK]
    exact accounted.apart j k other wasJ wasK
  · intro k
    by_cases here : k = i
    · exact here ▸ placed.eyes
    · exact (placed.others k here).eyes (accounted.eyes k)
  · rw [frames, results]
    exact fun r mem => (accounted.results r mem).imp_left fun mem => List.mem_append_left _ mem
  · exact results ▸ accounted.once

theorem emptied (accounted : Accounted answers g log) (held : (g.slots i).state ≠ .free)
    (emptied : Emptied g g' i) {r : GpuSpanResult} (frame : r.frame = (g.slots i).frame)
    (timed : r.Timed answers) : Accounted answers g' (log ++ [SpanEntry.result i r]) := by
  have frames : acceptedFrames (log ++ [SpanEntry.result i r]) = acceptedFrames log := by
    rw [acceptedFrames, List.filterMap_append]
    exact List.append_nil _
  have results : spanResults (log ++ [SpanEntry.result i r]) = spanResults log ++ [r] := by
    rw [spanResults, List.filterMap_append]
    rfl
  have isSequence : r.sequence = (g.slots i).sequence := congrArg AcceptedFrame.sequence frame
  have elsewhere : ∀ k, (g'.slots k).state ≠ .free → k ≠ i := by
    rintro k live rfl
    exact live emptied.free
  refine ⟨frames ▸ accounted.rising, ?_, ?_, ?_, ?_, ?_, ?_⟩
  · rw [frames, emptied.lastSequence]
    exact accounted.reached
  · rw [frames, results]
    intro k live
    have other := elsewhere k live
    obtain ⟨was, same, sequence⟩ := sequence_of_same (emptied.others k other) live
    rw [same, sequence, List.map_append, List.mem_append]
    obtain ⟨mem, untold⟩ := accounted.held k was
    refine ⟨mem, fun told => told.elim untold fun mine => ?_⟩
    have isMine : (g.slots k).sequence = r.sequence := List.mem_singleton.mp mine
    exact accounted.apart k i other was held (isMine.trans isSequence)
  · intro j k other heldJ heldK
    obtain ⟨wasJ, -, sequenceJ⟩ := sequence_of_same (emptied.others j (elsewhere j heldJ)) heldJ
    obtain ⟨wasK, -, sequenceK⟩ := sequence_of_same (emptied.others k (elsewhere k heldK)) heldK
    rw [sequenceJ, sequenceK]
    exact accounted.apart j k other wasJ wasK
  · intro k
    by_cases here : k = i
    · exact here ▸ emptied.eyes
    · exact (emptied.others k here).eyes (accounted.eyes k)
  · rw [frames, results]
    intro told mem
    rcases List.mem_append.mp mem with old | new
    · exact accounted.results told old
    · rw [List.mem_singleton.mp new, frame]
      exact ⟨(accounted.held i held).1, timed⟩
  · rw [results, List.map_append, List.nodup_append]
    refine ⟨accounted.once, List.nodup_singleton _, ?_⟩
    intro old isOld new isNew same
    have isHeld : old = (g.slots i).sequence :=
      (same.trans (List.mem_singleton.mp isNew)).trans isSequence
    exact (accounted.held i held).2 (isHeld ▸ isOld)

theorem unchanged (accounted : Accounted answers g log) (kept : Kept g g') :
    Accounted answers g' (log ++ []) := by
  rw [List.append_nil]
  exact accounted.kept kept.slots kept.lastSequence.ge

theorem began (accounted : Accounted answers g log) {sequence : Nat} {entries : List SpanEntry}
    (isSequence : a.sequence = sequence) (began : Began g sequence entries a g') :
    Accounted answers g' (log ++ entries) := by
  subst isSequence
  rcases began.cases with ⟨rfl, rfl | ⟨later, kept⟩⟩ | ⟨rfl, later, i, -, isPlaced⟩
  · exact accounted.unchanged (.refl _)
  · rw [List.append_nil]
    exact accounted.kept kept.slots (later.le.trans kept.lastSequence.ge)
  · exact accounted.placed later isPlaced

theorem pollSlots (accounted : Accounted answers g log) (words : Words answers)
    (l : List (Fin kSlots)) (now : Nat) :
    Accounted answers (GpuSpanState.pollSlots answers l now g).2
      (log ++ (GpuSpanState.pollSlots answers l now g).1.map fun r => .result r.1 r.2) := by
  induction l generalizing g log with
  | nil => exact accounted.unchanged (.refl _)
  | cons i rest ih =>
    have spec := pollSlot_spec answers words i now (accounted.eyes i)
    unfold GpuSpanState.pollSlots
    split
    · rename_i g' polling
      rw [polling] at spec
      rcases spec with ⟨-, kept⟩ | ⟨r, none, -⟩
      · exact ih (accounted.kept kept.slots kept.lastSequence.ge)
      · cases none
    · rename_i r g' polling
      rw [polling] at spec
      rcases spec with ⟨none, -⟩ | ⟨told, some, held, frame, timed, isEmptied⟩
      · cases none
      cases some
      have next := ih (accounted.emptied held isEmptied frame timed)
      rw [List.append_assoc] at next
      exact next

theorem poll (accounted : Accounted answers g log) (words : Words answers) (now : Nat)
    (owner : GpuSpanOwner) : Accounted answers (g.poll answers now owner).2
      (log ++ (g.poll answers now owner).1.map fun r => .result r.1 r.2) := by
  unfold GpuSpanState.poll
  split
  · exact accounted.unchanged (.refl _)
  · exact accounted.pollSlots words _ now

theorem retires (accounted : Accounted answers g log) (l : List (Fin kSlots)) :
    Accounted answers (l.foldl (fun g i => g.retire answers i true) g) log := by
  induction l generalizing g with
  | nil => exact accounted
  | cons i _ ih =>
    refine ih ?_
    obtain ⟨free, eyes, others, lastSequence⟩ := retire_emptied answers g i true
    have elsewhere : ∀ k, ((g.retire answers i true).slots k).state ≠ .free → k ≠ i := by
      rintro k live rfl
      exact live free
    refine ⟨accounted.rising, lastSequence ▸ accounted.reached, fun k live => ?_,
      fun j k other heldJ heldK => ?_, fun k => ?_, accounted.results, accounted.once⟩
    · obtain ⟨was, frame, sequence⟩ := sequence_of_same (others k (elsewhere k live)) live
      rw [frame, sequence]
      exact accounted.held k was
    · obtain ⟨wasJ, -, sequenceJ⟩ := sequence_of_same (others j (elsewhere j heldJ)) heldJ
      obtain ⟨wasK, -, sequenceK⟩ := sequence_of_same (others k (elsewhere k heldK)) heldK
      rw [sequenceJ, sequenceK]
      exact accounted.apart j k other wasJ wasK
    · by_cases here : k = i
      · exact here ▸ eyes
      · exact (others k here).eyes (accounted.eyes k)

theorem shutdown (accounted : Accounted answers g log) (inv : GpuSpanState.Inv g) (now : Nat)
    (owner : GpuSpanOwner) : Accounted answers (g.shutdown answers now owner).2 (log ++ []) := by
  rw [List.append_nil]
  unfold GpuSpanState.shutdown
  split
  · exact accounted
  · have closed := Kept.closeOpen answers inv .incomplete now
    have discarded := (accounted.kept closed.slots closed.lastSequence.ge).retires
      (List.finRange kSlots)
    exact { discarded with }

theorem perform (accounted : Accounted answers g log) (inv : GpuSpanState.Inv g)
    (words : Words answers) (call : SpanCall) :
    Accounted answers (g.perform answers call) (log ++ g.entries answers call) := by
  cases call with
  | beginFrame sequence sourceFrame now owner =>
    exact accounted.began (a := ⟨sequence, sourceFrame, .renderToSubmit⟩) rfl
      (beginFrame_began answers inv sequence sourceFrame now owner)
  | beginApplicationFrame sequence sourceFrame now owner =>
    exact accounted.began (a := ⟨sequence, sourceFrame, .applicationRender⟩) rfl
      (beginApplicationFrame_began answers inv sequence sourceFrame now owner)
  | endApplicationSegment now owner =>
    exact accounted.unchanged (.endApplicationSegment answers inv now owner)
  | resumeApplicationSegment now owner =>
    exact accounted.unchanged (.resumeApplicationSegment answers inv now owner)
  | finishApplicationFrame now owner =>
    exact accounted.unchanged (.finishApplicationFrame answers inv now owner)
  | beginEye eye now owner => exact accounted.unchanged (.beginEye answers inv eye now owner)
  | endEye eye now owner => exact accounted.unchanged (.endEye answers inv eye now owner)
  | finishFrame now owner => exact accounted.unchanged (.finishFrame answers inv now owner)
  | invalidateFrame now owner => exact accounted.unchanged (.invalidateFrame answers inv now owner)
  | poll now owner => exact accounted.poll words now owner
  | shutdown now owner => exact accounted.shutdown inv now owner

end Accounted

theorem spanRun_accounted {answers : Nat → SpanAnswer} (words : Words answers)
    (owner : GpuSpanOwner) (calls : List SpanCall) :
    (GpuSpanState.spanRun answers owner calls).1.Inv ∧
      Accounted answers (GpuSpanState.spanRun answers owner calls).1
        (GpuSpanState.spanRun answers owner calls).2 := by
  refine traced_induction _ _ (P := fun g log => g.Inv ∧ Accounted answers g log) ?_ ?_ calls
  · exact ⟨GpuSpanState.inv_fresh owner, .init owner⟩
  · rintro g log call ⟨inv, accounted⟩
    exact ⟨inv.perform answers call, accounted.perform inv words call⟩

theorem pollSlots_sublist (answers : Nat → SpanAnswer) (l : List (Fin kSlots)) (now : Nat)
    (g : GpuSpanState) :
    ((GpuSpanState.pollSlots answers l now g).1.map Prod.fst).Sublist l := by
  induction l generalizing g with
  | nil => exact List.Sublist.refl _
  | cons i rest ih =>
    unfold GpuSpanState.pollSlots
    split
    · exact (ih _).cons i
    · exact (ih _).cons_cons i

theorem poll_in_order (answers : Nat → SpanAnswer) (g : GpuSpanState) (now : Nat)
    (owner : GpuSpanOwner) :
    ((g.poll answers now owner).1.map Prod.fst).Pairwise (· < ·) := by
  unfold GpuSpanState.poll
  split
  · exact .nil
  · exact (List.pairwise_lt_finRange kSlots).sublist (pollSlots_sublist answers _ now g)

/-- Every result is of an accepted frame and the only one of it. A poll hands out results in
the order of the slots, and the times of a result are blank or those of stamps in order. -/
theorem span_results_of_accepted_frames (answers : Nat → SpanAnswer) (words : Words answers)
    (owner : GpuSpanOwner) (calls : List SpanCall) :
    let g := (GpuSpanState.spanRun answers owner calls).1
    let log := (GpuSpanState.spanRun answers owner calls).2
    ((acceptedFrames log).map (·.sequence)).Pairwise (· < ·) ∧
      ((spanResults log).map (·.sequence)).Nodup ∧
      (∀ r ∈ spanResults log, r.frame ∈ acceptedFrames log ∧ r.Timed answers) ∧
      ∀ now asker, ((g.poll answers now asker).1.map Prod.fst).Pairwise (· < ·) := by
  obtain ⟨-, accounted⟩ := spanRun_accounted words owner calls
  exact ⟨accounted.rising, accounted.once, accounted.results,
    fun now asker => poll_in_order answers _ now asker⟩

def polledKinds : List SpanCall :=
  GpuSpanState.bothKinds ++ [SpanCall.poll 5 GpuSpanState.renderer]

theorem span_results_of_polled_kinds :
    Words GpuSpanState.steady ∧
    ((acceptedFrames (GpuSpanState.spanRun GpuSpanState.steady GpuSpanState.renderer
      polledKinds).2).map (·.sequence)).Pairwise (· < ·) ∧
    (spanResults (GpuSpanState.spanRun GpuSpanState.steady GpuSpanState.renderer
      polledKinds).2).map (fun r => (r.sequence, r.reason)) = [(1, .valid), (2, .valid)] := by
  have words : Words GpuSpanState.steady := fun _ _ => show 7 ≤ uint64Max by decide
  exact ⟨words, (span_results_of_accepted_frames GpuSpanState.steady words GpuSpanState.renderer
    polledKinds).1, by decide +kernel⟩

def lateFirst (n : Nat) : SpanAnswer :=
  if n = 10 then {} else GpuSpanState.steady n

def twoFrames : List SpanCall :=
  [.beginFrame 1 1 0 GpuSpanState.renderer, .finishFrame 0 GpuSpanState.renderer,
    .beginFrame 2 2 0 GpuSpanState.renderer, .finishFrame 0 GpuSpanState.renderer,
    .poll 5 GpuSpanState.renderer, .poll 6 GpuSpanState.renderer]

/-- The second frame's result comes out first. -/
theorem later_frame_settles_first :
    ¬∀ (answers : Nat → SpanAnswer) (owner : GpuSpanOwner) (calls : List SpanCall), Words answers →
      ((spanResults (GpuSpanState.spanRun answers owner calls).2).map (·.sequence)).Pairwise
        (· < ·) := by
  intro ordered
  have words : Words lateFirst := by
    intro n k
    unfold lateFirst
    split
    · exact Nat.zero_le _
    · exact show 7 ≤ uint64Max by decide
  have sorted := ordered lateFirst GpuSpanState.renderer twoFrames words
  exact absurd sorted (by decide)

end EdvrPatch.Gpu
