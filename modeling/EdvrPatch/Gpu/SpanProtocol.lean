import EdvrPatch.Gpu.SpanState

/-! The instrument keeps to the query protocol, whichever calls it gets and whatever
the driver answers. -/
namespace EdvrPatch.Gpu

open Lib

/-- A slot between two calls; `active` says whether the instrument names it. -/
structure Slot.Ok (s : Slot) (active : Prop) : Prop where
  opened : s.state = .opened ↔ active
  made : s.state ≠ .free → s.created = true
  clean : s.state = .free → s = { created := s.created }

theorem Slot.ok_free {created : Bool} {active : Prop} (quiet : ¬active) :
    Slot.Ok { created := created } active :=
  ⟨⟨nofun, fun named => absurd named quiet⟩, fun live => absurd rfl live, fun _ => rfl⟩

namespace GpuSpanState

abbrev protocol : Monitor (Queries kSlots) (QueryCall kSlots) :=
  queryProtocol kSlots kMarkers

def device (g : GpuSpanState) : Queries kSlots :=
  protocol.after {} (g.log.map (·.call))

structure Inv (g : GpuSpanState) : Prop where
  lawful : protocol.Admits {} (g.log.map (·.call))
  created : ∀ i, g.device.created i = (g.slots i).created
  scope : g.device.scope = g.opened
  uncertain : g.device.uncertain = g.failed
  slots : ∀ i, (g.slots i).Ok (g.opened = some i)
  shut : g.shut = true → ∀ i, (g.slots i).state = .free ∧ (g.slots i).created = false

theorem inv_fresh (owner : GpuSpanOwner) : Inv (fresh owner) where
  lawful := trivial
  created _ := rfl
  scope := rfl
  uncertain := rfl
  slots _ := Slot.ok_free nofun
  shut := nofun

/-- All that is done at once: the driver is told something about one slot, and that
slot changes with it. -/
structure Changes (g : GpuSpanState) (i : Fin kSlots) (calls : List Issued) (g' : GpuSpanState) :
    Prop where
  log : g'.log = g.log ++ calls
  others : ∀ k, k ≠ i → g'.slots k = g.slots k ∧ (g'.opened = some k ↔ g.opened = some k)
  lawful : protocol.Admits g.device (calls.map (·.call))
  created : ∀ k, (protocol.after g.device (calls.map (·.call))).created k =
    if k = i then (g'.slots i).created else g.device.created k
  scope : (protocol.after g.device (calls.map (·.call))).scope = g'.opened
  uncertain : (protocol.after g.device (calls.map (·.call))).uncertain = g'.failed
  shut : g'.shut = false
  ok : (g'.slots i).Ok (g'.opened = some i)

variable {g g' : GpuSpanState} {i : Fin kSlots}

theorem Inv.change (inv : Inv g) (i : Fin kSlots) (calls : List Issued)
    (changes : Changes g i calls g') : Inv g' := by
  have device : g'.device = protocol.after g.device (calls.map (·.call)) := by
    unfold GpuSpanState.device
    rw [changes.log, List.map_append, Monitor.after_append]
  refine ⟨?_, ?_, ?_, ?_, ?_, ?_⟩
  · rw [changes.log, List.map_append, Monitor.admits_append]
    exact ⟨inv.lawful, changes.lawful⟩
  · intro k
    rw [device, changes.created]
    by_cases same : k = i
    · rw [if_pos same, same]
    · rw [if_neg same, (changes.others k same).1]
      exact inv.created k
  · rw [device, changes.scope]
  · rw [device, changes.uncertain]
  · intro k
    by_cases same : k = i
    · rw [same]
      exact changes.ok
    · rw [(changes.others k same).1]
      have ok := inv.slots k
      exact { ok with opened := ok.opened.trans (changes.others k same).2.symm }
  · rw [changes.shut]
    exact nofun

theorem Inv.setSlot (inv : Inv g) (running : g.shut = false) {s : Slot}
    (made : s.created = (g.slots i).created) (ok : s.Ok (g.opened = some i)) :
    Inv (g.setSlot i s) := by
  refine inv.change i [] ⟨by simp [GpuSpanState.setSlot], ?_, trivial, ?_, inv.scope, inv.uncertain,
    running, by simpa [GpuSpanState.setSlot] using ok⟩
  · intro k other
    exact ⟨Function.update_of_ne other .., Iff.rfl⟩
  · intro k
    by_cases same : k = i
    · subst same
      simpa [GpuSpanState.setSlot, made] using inv.created k
    · rw [if_neg same]
      rfl

variable (answers : Nat → SpanAnswer)

theorem Inv.issue (inv : Inv g) (call : Bool → QueryCall kSlots) (stamper : Stamper)
    (allowed : protocol.allows g.device (call (answers g.asked).ok))
    (same : protocol.advance g.device (call (answers g.asked).ok) = g.device) :
    Inv (g.issue answers call stamper).2 := by
  have device : (g.issue answers call stamper).2.device = g.device := by
    unfold GpuSpanState.device at same ⊢
    simp only [GpuSpanState.issue, List.map_append, List.map_singleton, Monitor.after_append]
    exact same
  refine ⟨?_, ?_, ?_, ?_, inv.slots, inv.shut⟩
  · simp only [GpuSpanState.issue, List.map_append, List.map_singleton, Monitor.admits_append]
    exact ⟨inv.lawful, allowed, trivial⟩
  · rw [device]
    exact inv.created
  · rw [device]
    exact inv.scope
  · rw [device]
    exact inv.uncertain

theorem Inv.timestamp (inv : Inv g) (active : g.opened = some i) {index : Nat}
    (known : index < kMarkers) (stamper : Stamper) :
    Inv (g.timestamp answers i index stamper).2 :=
  inv.issue answers _ stamper ⟨inv.scope.trans active, known⟩ rfl

theorem Inv.settle (inv : Inv g) (running : g.shut = false) (active : g.opened = some i)
    (reason : GpuSpanReason) (now : Nat) :
    Inv ((g.endScope answers i).2.settle i (g.endScope answers i).1 reason now).2 := by
  have ok := inv.slots i
  have made : (g.slots i).created = true := by
    refine ok.made ?_
    rw [ok.opened.mpr active]
    decide
  refine inv.change i [⟨.ends i (answers g.asked).ok, .frame⟩] ⟨rfl, ?_,
    ⟨inv.scope.trans active, trivial⟩, ?_, rfl, ?_, running, ?_⟩
  · intro k other
    refine ⟨Function.update_of_ne other .., ?_⟩
    rw [active]
    exact iff_of_false (Option.some_ne_none k).symm fun same => other (Option.some.inj same).symm
  · intro k
    by_cases same : k = i
    · subst same
      simpa [GpuSpanState.settle, GpuSpanState.setSlot, endScope, GpuSpanState.issue, queryProtocol]
        using inv.created k
    · rw [if_neg same]
      rfl
  · change (g.device.uncertain || !(answers g.asked).ok) = _
    rw [inv.uncertain]
    rfl
  · simp only [GpuSpanState.settle, GpuSpanState.setSlot, Function.update_self]
    exact ⟨iff_of_false (by rintro ⟨⟩) (Option.some_ne_none i).symm, fun _ => made, by rintro ⟨⟩⟩

/-- The scope that was open is over, and the instrument still runs. -/
structure Closed (g : GpuSpanState) : Prop extends Inv g where
  running : g.shut = false
  quiet : g.opened = none

theorem Inv.close (inv : Inv g) (running : g.shut = false) (active : g.opened = some i)
    (reason : GpuSpanReason) (now : Nat) : Closed (g.close answers i reason now).2 := by
  have stamped := inv.timestamp answers active (show 1 < kMarkers by decide) .frame
  exact ⟨stamped.settle answers running active _ now, running, rfl⟩

theorem Inv.setSlot_opened (inv : Inv g) (running : g.shut = false) (active : g.opened = some i)
    {s : Slot} (made : s.created = (g.slots i).created) (opened : s.state = .opened) :
    Inv (g.setSlot i s) := by
  refine inv.setSlot running made ⟨⟨fun _ => active, fun _ => opened⟩, fun _ => ?_, ?_⟩
  · have ok := inv.slots i
    rw [made]
    refine ok.made ?_
    rw [ok.opened.mpr active]
    decide
  · rw [opened]
    exact nofun

theorem Inv.closeSegment (inv : Inv g) (running : g.shut = false) (active : g.opened = some i) :
    Inv (g.closeSegment answers i).2 ∧ (g.closeSegment answers i).2.opened = some i ∧
      (g.closeSegment answers i).2.shut = false := by
  have opened := (inv.slots i).opened.mpr active
  unfold GpuSpanState.closeSegment
  dsimp only
  generalize segmentEnd (g.slots i).segmentCount = index
  split
  · split
    · rename_i known
      have stamped := inv.timestamp answers active known .closing
      exact ⟨stamped.setSlot_opened running active rfl opened, active, running⟩
    · exact ⟨inv.setSlot_opened running active rfl opened, active, running⟩
  · exact ⟨inv, active, running⟩

theorem Inv.closeApplication (inv : Inv g) (running : g.shut = false) (active : g.opened = some i)
    (reason : GpuSpanReason) (now : Nat) : Closed (g.closeApplication answers i reason now).2 := by
  obtain ⟨ended, active, running⟩ := inv.closeSegment answers running active
  exact ⟨ended.settle answers running active _ now, running, rfl⟩

theorem Inv.closeOpen (inv : Inv g) (running : g.shut = false) (reason : GpuSpanReason) (now : Nat) :
    Closed (g.closeOpen answers reason now) := by
  unfold GpuSpanState.closeOpen
  cases active : g.opened with
  | none => exact ⟨inv, running, active⟩
  | some i =>
    dsimp only
    split
    · exact inv.closeApplication answers running active reason now
    · exact inv.close answers running active reason now

theorem Closed.make (closed : Closed g) (free : (g.slots i).state = .free)
    (missing : (g.slots i).created = false) (answered : (answers g.asked).ok = true) :
    Closed ((g.create answers i).2.setSlot i { created := true }) := by
  have allowed : g.device.created i = false := (closed.created i).trans missing
  have idle : Slot.Ok { created := true } (g.opened = some i) := by
    refine Slot.ok_free ?_
    rw [closed.quiet]
    exact nofun
  refine ⟨closed.toInv.change i [⟨.create i true, .frame⟩] ⟨?_, ?_, ⟨allowed, trivial⟩, ?_,
    closed.scope, closed.uncertain, closed.running, ?_⟩, closed.running, closed.quiet⟩
  · simp [GpuSpanState.create, GpuSpanState.issue, GpuSpanState.setSlot, answered]
  · intro k other
    exact ⟨Function.update_of_ne other .., Iff.rfl⟩
  · intro k
    by_cases same : k = i
    · subst same
      simp [GpuSpanState.setSlot, queryProtocol]
    · simp [same, queryProtocol]
  · simp only [GpuSpanState.setSlot, Function.update_self]
    exact idle

theorem Closed.takeSlot (closed : Closed g) :
    Closed (g.takeSlot answers).2 ∧ (g.takeSlot answers).2.failed = g.failed ∧
      ∀ i, (g.takeSlot answers).1 = .ok i →
        (g.takeSlot answers).2.slots i = { created := true } := by
  unfold GpuSpanState.takeSlot
  split
  · exact ⟨closed, rfl, nofun⟩
  rename_i i found
  have free : (g.slots i).state = .free := by simpa using List.find?_some found
  have clean := (closed.slots i).clean free
  split
  · rename_i made
    refine ⟨closed, rfl, fun k same => ?_⟩
    cases same
    rw [clean, made]
  · rename_i missing
    have absent : (g.slots i).created = false := by simpa using missing
    have allowed : g.device.created i = false := (closed.created i).trans absent
    split
    · rename_i g' creating
      have failed : (answers g.asked).ok = false := congrArg Prod.fst creating
      have asked := closed.toInv.issue answers (.create i) .frame allowed (by rw [failed]; rfl)
      have told : (g.create answers i).2 = g' := congrArg Prod.snd creating
      rw [← told]
      exact ⟨⟨asked, closed.running, closed.quiet⟩, rfl, nofun⟩
    · rename_i g' creating
      have answered : (answers g.asked).ok = true := congrArg Prod.fst creating
      have made := closed.make answers free absent answered
      have told : (g.create answers i).2 = g' := congrArg Prod.snd creating
      have slot : { g'.slots i with created := true } = ({ created := true } : Slot) := by
        rw [← told]
        change { g.slots i with created := true } = _
        rw [clean]
      dsimp only at slot ⊢
      rw [slot, ← told]
      refine ⟨made, rfl, fun k same => ?_⟩
      cases same
      exact Function.update_self ..

theorem gate_valid {owner : GpuSpanOwner} (checked : g.gate owner = .valid) :
    g.failed = false ∧ g.shut = false := by
  unfold GpuSpanState.gate at checked
  split at checked
  · cases checked
  split at checked
  · cases checked
  · rename_i running
    simpa using running

theorem Inv.lastSequence (inv : Inv g) (sequence : Nat) :
    Inv { g with lastSequence := sequence } :=
  ⟨inv.lawful, inv.created, inv.scope, inv.uncertain, inv.slots, inv.shut⟩

structure Ready (g : GpuSpanState) (i : Fin kSlots) : Prop extends Closed g where
  sound : g.failed = false
  blank : g.slots i = { created := true }

theorem Inv.enter (inv : Inv g) (sequence now : Nat) (owner : GpuSpanOwner) :
    Inv (g.enter answers sequence now owner).2 ∧
      ∀ i, (g.enter answers sequence now owner).1 = .ok i →
        Ready (g.enter answers sequence now owner).2 i := by
  unfold GpuSpanState.enter
  dsimp only
  split
  · exact ⟨inv, nofun⟩
  rename_i checked
  obtain ⟨-, running⟩ := gate_valid (not_not.mp checked)
  split
  · exact ⟨inv, nofun⟩
  have closed := (inv.lastSequence sequence).closeOpen answers running .incomplete now
  split
  · exact ⟨closed.toInv, nofun⟩
  · rename_i sound
    obtain ⟨taken, same, blank⟩ := closed.takeSlot answers
    refine ⟨taken.toInv, fun i found => ⟨taken, ?_, blank i found⟩⟩
    rw [same]
    simpa using sound

theorem Ready.quiet_device {i : Fin kSlots} (ready : Ready g i) :
    g.device.created i = true ∧ g.device.scope = none ∧ g.device.uncertain = false := by
  refine ⟨?_, ready.scope.trans ready.quiet, ready.uncertain.trans ready.sound⟩
  rw [ready.created, ready.blank]

theorem Ready.opens (ready : Ready g i) (first : Slot) {s : Slot} (opened : s.state = .opened)
    (made : s.created = true) (answered : (answers g.asked).ok = true) :
    Inv { ((g.setSlot i first).beginScope answers i).2.setSlot i s with opened := some i } := by
  refine ready.toInv.change i [⟨.begins i true, .frame⟩] ⟨?_, ?_, ⟨ready.quiet_device, trivial⟩,
    ?_, rfl, ready.uncertain, ready.running, ?_⟩
  · simp [GpuSpanState.beginScope, GpuSpanState.issue, GpuSpanState.setSlot, answered]
  · intro k other
    refine ⟨?_, ?_⟩
    · simp [GpuSpanState.beginScope, GpuSpanState.issue, GpuSpanState.setSlot, other]
    · rw [ready.quiet]
      exact iff_of_false (fun same => other (Option.some.inj same).symm) (Option.some_ne_none k).symm
  · intro k
    by_cases same : k = i
    · subst same
      simp [GpuSpanState.setSlot, queryProtocol, made, ready.quiet_device.1]
    · simp [same, queryProtocol]
  · simp only [GpuSpanState.setSlot, Function.update_self]
    refine ⟨⟨fun _ => trivial, fun _ => opened⟩, fun _ => made, ?_⟩
    rw [opened]
    rintro ⟨⟩

theorem Ready.begin_fails (ready : Ready g i) (first : Slot) {s : Slot} (failed : s.state = .failed)
    (made : s.created = true) (answered : (answers g.asked).ok = false) :
    Inv (((g.setSlot i first).beginScope answers i).2.setSlot i s) := by
  refine ready.toInv.change i [⟨.begins i false, .frame⟩] ⟨?_, ?_, ⟨ready.quiet_device, trivial⟩,
    ?_, ready.scope, ready.uncertain, ready.running, ?_⟩
  · simp [GpuSpanState.beginScope, GpuSpanState.issue, GpuSpanState.setSlot, answered]
  · intro k other
    refine ⟨?_, Iff.rfl⟩
    simp [GpuSpanState.beginScope, GpuSpanState.issue, GpuSpanState.setSlot, other]
  · intro k
    by_cases same : k = i
    · subst same
      simp [GpuSpanState.setSlot, queryProtocol, made, ready.quiet_device.1]
    · simp [same, queryProtocol]
  · simp only [GpuSpanState.setSlot, Function.update_self]
    refine ⟨?_, fun _ => made, ?_⟩
    · rw [failed]
      refine iff_of_false (by decide) fun named => ?_
      have quiet : g.opened = none := ready.quiet
      rw [show (g.opened = some i) from named] at quiet
      cases quiet
    · rw [failed]
      rintro ⟨⟩

theorem Inv.beginFrame (inv : Inv g) (sequence sourceFrame now : Nat) (owner : GpuSpanOwner) :
    Inv (g.beginFrame answers sequence sourceFrame now owner).2 := by
  have entered := inv.enter answers sequence now owner
  unfold GpuSpanState.beginFrame
  split
  · rename_i reason g' entering
    rw [entering] at entered
    exact entered.1
  rename_i i g' entering
  rw [entering] at entered
  have ready : Ready g' i := entered.2 i rfl
  have made : (g'.slots i).created = true := by rw [ready.blank]
  dsimp only
  split
  · rename_i told begun
    have failed : (answers g'.asked).ok = false := congrArg Prod.fst begun
    obtain rfl := congrArg Prod.snd begun
    refine ready.begin_fails answers _ rfl ?_ failed
    simpa [GpuSpanState.beginScope, GpuSpanState.issue, GpuSpanState.setSlot] using made
  · rename_i told begun
    have answered : (answers g'.asked).ok = true := congrArg Prod.fst begun
    obtain rfl := congrArg Prod.snd begun
    have opens := ready.opens answers
      { g'.slots i with sequence := sequence, sourceFrame := sourceFrame }
      (s := { g'.slots i with sequence := sequence, sourceFrame := sourceFrame, state := .opened })
      rfl made answered
    have stamped := opens.timestamp answers (i := i) rfl (show 0 < kMarkers by decide) .frame
    simp only [GpuSpanState.beginScope, GpuSpanState.issue, GpuSpanState.setSlot,
      Function.update_self] at opens stamped ⊢
    split
    · rename_i g'' stamping
      obtain rfl := congrArg Prod.snd stamping
      exact (stamped.close answers ready.running rfl .driverFailure now).toInv
    · rename_i g'' stamping
      obtain rfl := congrArg Prod.snd stamping
      exact stamped

theorem Inv.beginApplicationFrame (inv : Inv g) (sequence sourceFrame now : Nat)
    (owner : GpuSpanOwner) :
    Inv (g.beginApplicationFrame answers sequence sourceFrame now owner).2 := by
  have entered := inv.enter answers sequence now owner
  unfold GpuSpanState.beginApplicationFrame
  split
  · rename_i reason g' entering
    rw [entering] at entered
    exact entered.1
  rename_i i g' entering
  rw [entering] at entered
  have ready : Ready g' i := entered.2 i rfl
  dsimp only
  split
  · rename_i told begun
    have failed : (answers g'.asked).ok = false := congrArg Prod.fst begun
    obtain rfl := congrArg Prod.snd begun
    refine ready.begin_fails answers _ rfl ?_ failed
    simp [GpuSpanState.beginScope, GpuSpanState.issue, GpuSpanState.setSlot]
  · rename_i told begun
    have answered : (answers g'.asked).ok = true := congrArg Prod.fst begun
    obtain rfl := congrArg Prod.snd begun
    let first : Slot :=
      { created := true, application := true, sequence := sequence, sourceFrame := sourceFrame }
    have opens := ready.opens answers first
      (s := { first with state := .opened, segmentCount := 1 }) rfl rfl answered
    have stamped := opens.timestamp answers (i := i) rfl (show 0 < kMarkers by decide) .segment
    simp only [GpuSpanState.beginScope, GpuSpanState.issue, GpuSpanState.setSlot,
      Function.update_self] at opens stamped ⊢
    split
    · rename_i g'' stamping
      obtain rfl := congrArg Prod.snd stamping
      exact (stamped.closeApplication answers ready.running rfl .driverFailure now).toInv
    · rename_i g'' stamping
      obtain rfl := congrArg Prod.snd stamping
      exact stamped.setSlot_opened (i := i) ready.running rfl rfl
        ((stamped.slots i).opened.mpr rfl)

theorem Inv.onOpen (inv : Inv g) (owner : GpuSpanOwner)
    (act : Fin kSlots → GpuSpanReason × GpuSpanState)
    (kept : ∀ i, g.opened = some i → g.shut = false → Inv (act i).2) :
    Inv (g.onOpen owner act).2 := by
  unfold GpuSpanState.onOpen
  dsimp only
  split
  · exact inv
  rename_i checked
  obtain ⟨-, running⟩ := gate_valid (not_not.mp checked)
  split
  · exact inv
  · rename_i i active
    exact kept i active running

theorem segmentEnd_lt {segmentCount : Nat} (some_ : segmentCount ≠ 0) (few : segmentCount ≤ 4) :
    segmentEnd segmentCount < kMarkers := by
  unfold segmentEnd kMarkers
  omega

theorem Inv.stamps (inv : Inv g) (running : g.shut = false) (active : g.opened = some i)
    {index : Nat} (known : index < kMarkers) (stamper : Stamper)
    {fails : GpuSpanState → GpuSpanReason × GpuSpanState} {s : Slot → Slot}
    (closes : ∀ g', Inv g' → g'.opened = some i → g'.shut = false → Inv (fails g').2)
    (same : ∀ slot, (s slot).created = slot.created ∧ (s slot).state = slot.state) :
    Inv (match g.timestamp answers i index stamper with
      | (false, g) => fails g
      | (true, g) => (GpuSpanReason.valid, g.setSlot i (s (g.slots i)))).2 := by
  have stamped := inv.timestamp answers active known stamper
  split
  · rename_i g' stamping
    obtain rfl := congrArg Prod.snd stamping
    exact closes _ stamped active running
  · rename_i g' stamping
    obtain rfl := congrArg Prod.snd stamping
    exact stamped.setSlot_opened running active (same _).1
      ((same _).2.trans ((stamped.slots i).opened.mpr active))

theorem Inv.endApplicationSegment (inv : Inv g) (now : Nat) (owner : GpuSpanOwner) :
    Inv (g.endApplicationSegment answers now owner).2 := by
  refine inv.onOpen owner _ fun i active running => ?_
  dsimp only
  split
  · exact (inv.closeApplication answers running active .incomplete now).toInv
  · rename_i lawful
    simp only [Bool.or_eq_true, Bool.not_eq_true', beq_iff_eq, decide_eq_true_eq, not_or,
      Bool.not_eq_false, Nat.not_lt] at lawful
    obtain ⟨⟨-, some_⟩, few⟩ := lawful
    exact inv.stamps answers running active (segmentEnd_lt some_ few) .segment
      (fun g' kept active running =>
        (kept.closeApplication answers running active .driverFailure now).toInv)
      (s := fun slot => { slot with segmentOpen := false }) (fun _ => ⟨rfl, rfl⟩)

theorem Inv.resumeApplicationSegment (inv : Inv g) (now : Nat) (owner : GpuSpanOwner) :
    Inv (g.resumeApplicationSegment answers now owner).2 := by
  refine inv.onOpen owner _ fun i active running => ?_
  dsimp only
  split
  · exact inv
  · rename_i lawful
    simp only [Bool.or_eq_true, decide_eq_true_eq, not_or, Nat.not_le] at lawful
    have known : 2 * (g.slots i).segmentCount < kMarkers := by
      unfold kMarkers
      omega
    exact inv.stamps answers running active known .segment
      (fun g' kept active running =>
        (kept.closeApplication answers running active .driverFailure now).toInv)
      (s := fun slot =>
        { slot with segmentCount := (g.slots i).segmentCount + 1, segmentOpen := true })
      (fun _ => ⟨rfl, rfl⟩)

theorem Inv.finishApplicationFrame (inv : Inv g) (now : Nat) (owner : GpuSpanOwner) :
    Inv (g.finishApplicationFrame answers now owner).2 := by
  refine inv.onOpen owner _ fun i active running => ?_
  dsimp only
  split
  · exact inv
  split
  · exact (inv.closeApplication answers running active .incomplete now).toInv
  · exact inv.settle answers running active _ now

theorem Inv.beginEye (inv : Inv g) (eye now : Nat) (owner : GpuSpanOwner) :
    Inv (g.beginEye answers eye now owner).2 := by
  refine inv.onOpen owner _ fun i active running => ?_
  dsimp only
  split
  · exact (inv.close answers running active .badPair now).toInv
  · rename_i lawful
    simp only [Bool.or_eq_true, decide_eq_true_eq, not_or, Nat.not_lt] at lawful
    have known : 2 + 2 * eye < kMarkers := by
      unfold kMarkers
      omega
    exact inv.stamps answers running active known .eye
      (fun g' kept active running =>
        (kept.close answers running active .driverFailure now).toInv)
      (s := fun slot =>
        { slot with
          begun := (g.slots i).begun ||| 2 ^ eye
          activeEye := some eye
          order := (g.slots i).order ++ [eye] })
      (fun _ => ⟨rfl, rfl⟩)

theorem Inv.endEye (inv : Inv g) (eye now : Nat) (owner : GpuSpanOwner) :
    Inv (g.endEye answers eye now owner).2 := by
  refine inv.onOpen owner _ fun i active running => ?_
  dsimp only
  split
  · exact (inv.close answers running active .badPair now).toInv
  · rename_i lawful
    simp only [Bool.or_eq_true, decide_eq_true_eq, not_or, Nat.not_lt] at lawful
    have known : 3 + 2 * eye < kMarkers := by
      unfold kMarkers
      omega
    exact inv.stamps answers running active known .eye
      (fun g' kept active running =>
        (kept.close answers running active .driverFailure now).toInv)
      (s := fun slot =>
        { slot with ended := (g.slots i).ended ||| 2 ^ eye, activeEye := none })
      (fun _ => ⟨rfl, rfl⟩)

theorem Inv.finishFrame (inv : Inv g) (now : Nat) (owner : GpuSpanOwner) :
    Inv (g.finishFrame answers now owner).2 :=
  inv.onOpen owner _ fun _ active running => (inv.close answers running active _ now).toInv

theorem Inv.invalidateFrame (inv : Inv g) (now : Nat) (owner : GpuSpanOwner) :
    Inv (g.invalidateFrame answers now owner).2 := by
  refine inv.onOpen owner _ fun i active running => ?_
  split
  · exact (inv.closeApplication answers running active .incomplete now).toInv
  · exact (inv.close answers running active .incomplete now).toInv

theorem retire_same (g : GpuSpanState) (i : Fin kSlots) (destroys : Bool) :
    (g.retire answers i destroys).shut = g.shut ∧
      (g.retire answers i destroys).opened = g.opened ∧
      (g.retire answers i destroys).slots =
        Function.update g.slots i { created := (g.slots i).created && !destroys } := by
  unfold GpuSpanState.retire
  dsimp only
  split <;> exact ⟨rfl, rfl, rfl⟩

theorem Inv.retire (inv : Inv g) (running : g.shut = false) (quiet : g.opened ≠ some i)
    (destroys : Bool) : Inv (g.retire answers i destroys) := by
  unfold GpuSpanState.retire
  dsimp only
  split
  · rename_i both
    obtain ⟨made, destroyed⟩ := Bool.and_eq_true_iff.mp both
    have held : g.device.created i = true := (inv.created i).trans made
    have apart : g.device.scope ≠ some i := by
      rw [inv.scope]
      exact quiet
    refine inv.change i [⟨.destroy i, .frame⟩] ⟨rfl, ?_, ⟨⟨held, apart⟩, trivial⟩, ?_, inv.scope,
      inv.uncertain, running, ?_⟩
    · intro k other
      exact ⟨Function.update_of_ne other .., Iff.rfl⟩
    · intro k
      by_cases same : k = i
      · subst same
        simp [GpuSpanState.setSlot, queryProtocol, destroyed]
      · simp [same, queryProtocol]
    · simp only [GpuSpanState.setSlot, Function.update_self]
      exact Slot.ok_free quiet
  · rename_i kept
    refine inv.setSlot running ?_ (Slot.ok_free quiet)
    cases made : (g.slots i).created <;> simp_all

theorem Inv.sampled (inv : Inv g) (quiet : g.opened ≠ some i)
    (made : (g.slots i).created = true) (now : Nat) :
    Inv (g.sampled answers i now).2 ∧ (g.sampled answers i now).2.shut = g.shut ∧
      (g.sampled answers i now).2.opened = g.opened := by
  have asked : Inv (g.pollDriver answers i).2.2 := by
    refine inv.issue answers (fun _ => .poll i) .frame ⟨(inv.created i).trans made, ?_⟩ rfl
    rw [inv.scope]
    exact quiet
  unfold GpuSpanState.sampled
  dsimp only
  split
  · exact ⟨inv, rfl, rfl⟩
  split
  · exact ⟨inv, rfl, rfl⟩
  unfold GpuSpanState.pollDriver at asked ⊢
  cases (answers g.asked).poll with
  | pending => exact ⟨asked, rfl, rfl⟩
  | failed => exact ⟨asked, rfl, rfl⟩
  | ready =>
    dsimp only
    split
    · exact ⟨asked, rfl, rfl⟩
    split
    · exact ⟨asked, rfl, rfl⟩
    · exact ⟨asked, rfl, rfl⟩

theorem Inv.pollSlot (inv : Inv g) (running : g.shut = false) (i : Fin kSlots) (now : Nat) :
    Inv (g.pollSlot answers i now).2 ∧ (g.pollSlot answers i now).2.shut = false := by
  unfold GpuSpanState.pollSlot
  dsimp only
  split
  · exact ⟨inv, running⟩
  rename_i waits
  have ok := inv.slots i
  have quiet : g.opened ≠ some i := by
    intro active
    exact waits (by rw [ok.opened.mpr active]; decide)
  have made : (g.slots i).created = true := by
    refine ok.made fun free => ?_
    exact waits (by rw [free]; decide)
  have asked := inv.sampled answers quiet made now
  split
  · rename_i g' sampling
    rw [sampling] at asked
    exact ⟨asked.1, asked.2.1.trans running⟩
  · rename_i reason raw g' sampling
    rw [sampling] at asked
    obtain ⟨kept, shut, opened⟩ := asked
    have apart : g'.opened ≠ some i := by
      rw [show g'.opened = g.opened from opened]
      exact quiet
    exact ⟨kept.retire answers (shut.trans running) apart _,
      (retire_same answers g' i _).1.trans (shut.trans running)⟩

theorem Inv.pollSlots (inv : Inv g) (running : g.shut = false) (l : List (Fin kSlots))
    (now : Nat) : Inv (pollSlots answers l now g).2 := by
  induction l generalizing g with
  | nil => exact inv
  | cons i rest ih =>
    obtain ⟨kept, shut⟩ := inv.pollSlot answers running i now
    unfold GpuSpanState.pollSlots
    split
    · rename_i g' polling
      rw [polling] at kept shut
      exact ih kept shut
    · rename_i result g' polling
      rw [polling] at kept shut
      exact ih kept shut

theorem Inv.poll (inv : Inv g) (now : Nat) (owner : GpuSpanOwner) :
    Inv (g.poll answers now owner).2 := by
  unfold GpuSpanState.poll
  split
  · exact inv
  · rename_i accepted
    simp only [Bool.or_eq_true, not_or, Bool.not_eq_true] at accepted
    exact inv.pollSlots answers accepted.2 _ now

theorem Closed.retires (closed : Closed g) (l : List (Fin kSlots)) :
    let g' := l.foldl (fun g i => g.retire answers i true) g
    Closed g' ∧ ∀ i, i ∈ l ∨ g.slots i = {} → g'.slots i = {} := by
  induction l generalizing g with
  | nil => exact ⟨closed, fun i known => known.resolve_left nofun⟩
  | cons i rest ih =>
    obtain ⟨shut, opened, slots⟩ := retire_same answers g i true
    have quiet : g.opened ≠ some i := by
      rw [closed.quiet]
      exact nofun
    have kept := closed.toInv.retire answers closed.running quiet true
    obtain ⟨later, blank⟩ := ih ⟨kept, shut.trans closed.running, opened.trans closed.quiet⟩
    refine ⟨later, fun k known => blank k ?_⟩
    rw [slots]
    by_cases here : k = i
    · right
      rw [here, Function.update_self, Bool.not_true, Bool.and_false]
    · rw [Function.update_of_ne here]
      exact known.imp_left fun member => (List.mem_cons.mp member).resolve_left here

theorem Inv.shutdown (inv : Inv g) (now : Nat) (owner : GpuSpanOwner) :
    Inv (g.shutdown answers now owner).2 := by
  unfold GpuSpanState.shutdown
  split
  · exact inv
  · rename_i accepted
    simp only [Bool.or_eq_true, not_or, Bool.not_eq_true] at accepted
    have closed := inv.closeOpen answers accepted.2 .incomplete now
    obtain ⟨retired, blank⟩ := closed.retires answers (List.finRange kSlots)
    refine ⟨retired.lawful, retired.created, retired.scope, retired.uncertain, retired.slots,
      fun _ i => ?_⟩
    rw [blank i (.inl (List.mem_finRange i))]
    exact ⟨rfl, rfl⟩

theorem Inv.perform (inv : Inv g) (call : SpanCall) : Inv (g.perform answers call) := by
  cases call with
  | beginFrame sequence sourceFrame now owner =>
    exact inv.beginFrame answers sequence sourceFrame now owner
  | beginApplicationFrame sequence sourceFrame now owner =>
    exact inv.beginApplicationFrame answers sequence sourceFrame now owner
  | endApplicationSegment now owner => exact inv.endApplicationSegment answers now owner
  | resumeApplicationSegment now owner => exact inv.resumeApplicationSegment answers now owner
  | finishApplicationFrame now owner => exact inv.finishApplicationFrame answers now owner
  | beginEye eye now owner => exact inv.beginEye answers eye now owner
  | endEye eye now owner => exact inv.endEye answers eye now owner
  | finishFrame now owner => exact inv.finishFrame answers now owner
  | invalidateFrame now owner => exact inv.invalidateFrame answers now owner
  | poll now owner => exact inv.poll answers now owner
  | shutdown now owner => exact inv.shutdown answers now owner

theorem Inv.run (inv : Inv g) (calls : List SpanCall) : Inv (g.run answers calls) := by
  induction calls generalizing g with
  | nil => exact inv
  | cons call _ ih => exact ih (inv.perform answers call)

theorem Inv.balance (inv : Inv g) (i : Fin kSlots) :
    creations i (g.log.map (·.call)) =
      destructions i (g.log.map (·.call)) + (g.slots i).created.toNat := by
  have counted := creations_eq i inv.lawful
  rw [← inv.created i]
  exact counted

theorem Inv.settled (inv : Inv g) (shut : g.shut = true) :
    g.device.scope = none ∧
      ∀ i, creations i (g.log.map (·.call)) = destructions i (g.log.map (·.call)) := by
  refine ⟨?_, fun i => ?_⟩
  · rw [inv.scope]
    cases active : g.opened with
    | none => rfl
    | some i =>
      have opened := (inv.slots i).opened.mpr active
      rw [(inv.shut shut i).1] at opened
      cases opened
  · rw [inv.balance i, (inv.shut shut i).2]
    rfl

theorem shutdown_shut {now : Nat} {owner : GpuSpanOwner}
    (done : (g.shutdown answers now owner).1 = true) : (g.shutdown answers now owner).2.shut = true := by
  unfold GpuSpanState.shutdown at done ⊢
  split_ifs at done ⊢
  rfl

/-- Whatever is called and whatever the driver answers, the device is asked lawfully:
scopes do not nest, a scope that began is ended once, timestamps are taken in the open
scope with an index the slot has, nothing begins once an end has failed, and once the
instrument has shut down, as after every shutdown that it accepts, every object that was
made has been destroyed, once. -/
theorem span_keeps_protocol (owner : GpuSpanOwner) (calls : List SpanCall) :
    let g := (fresh owner).run answers calls
    let told := g.log.map (·.call)
    protocol.Admits {} told ∧
    (∀ i, creations i told = destructions i told + (g.slots i).created.toNat) ∧
    (g.shut = true →
      g.device.scope = none ∧ ∀ i, creations i told = destructions i told) ∧
    ∀ now asker, (g.shutdown answers now asker).1 = true →
      (g.shutdown answers now asker).2.device.scope = none ∧
      ∀ i, creations i ((g.shutdown answers now asker).2.log.map (·.call)) =
        destructions i ((g.shutdown answers now asker).2.log.map (·.call)) := by
  intro g told
  have inv : Inv g := (inv_fresh owner).run answers calls
  exact ⟨inv.lawful, inv.balance, inv.settled, fun now asker done =>
    (inv.shutdown answers now asker).settled (shutdown_shut answers done)⟩

end GpuSpanState

end EdvrPatch.Gpu
