import EdvrPatch.Gpu.SpanStamps

/-! What the calls of the instrument do to the frames in its slots: a frame is put in a free slot,
its slot is closed with a verdict, and a poll gives back the slots it has results of. -/
namespace EdvrPatch.Gpu

/-- What a slot holds: nothing, a frame, or a frame that is over and how. -/
def Slot.face (s : Slot) : SlotState × Nat × GpuSpanReason := (s.state, s.sequence, s.reason)

namespace GpuSpanState

structure SameFaces (g g' : GpuSpanState) : Prop where
  faces : ∀ k, (g'.slots k).face = (g.slots k).face
  opened : g'.opened = g.opened
  owner : g'.owner = g.owner

structure Closes (g g' : GpuSpanState) (i : Fin kSlots) (reason : GpuSpanReason) : Prop where
  active : g.opened = some i
  opened : g'.opened = none
  owner : g'.owner = g.owner
  face : (g'.slots i).face = (.pending, (g.slots i).sequence, reason)
  others : ∀ k ≠ i, (g'.slots k).face = (g.slots k).face

def GivesUp (g g' : GpuSpanState) : Prop :=
  SameFaces g g' ∨ ∃ i reason, reason ≠ .valid ∧ Closes g g' i reason

section

variable (answers : Nat → SpanAnswer) {g g' g'' : GpuSpanState} {i : Fin kSlots}
  {reason : GpuSpanReason} {now : Nat}

theorem SameFaces.refl (g : GpuSpanState) : SameFaces g g := ⟨fun _ => rfl, rfl, rfl⟩

theorem SameFaces.trans (first : SameFaces g g') (rest : SameFaces g' g'') : SameFaces g g'' :=
  ⟨fun k => (rest.faces k).trans (first.faces k), rest.opened.trans first.opened,
    rest.owner.trans first.owner⟩

theorem SameFaces.closes (first : SameFaces g g') (rest : Closes g' g'' i reason) :
    Closes g g'' i reason where
  active := first.opened.symm.trans rest.active
  opened := rest.opened
  owner := rest.owner.trans first.owner
  face := by
    rw [rest.face]
    exact congrArg (fun face => (SlotState.pending, face.2.1, reason)) (first.faces i)
  others := fun k other => (rest.others k other).trans (first.faces k)

theorem SameFaces.issue (call : Bool → QueryCall kSlots) (stamper : Stamper) :
    SameFaces g (g.issue answers call stamper).2 := ⟨fun _ => rfl, rfl, rfl⟩

theorem SameFaces.setSlot {s : Slot} (same : s.face = (g.slots i).face) :
    SameFaces g (g.setSlot i s) := by
  refine ⟨fun k => ?_, rfl, rfl⟩
  by_cases here : k = i
  · subst here
    rw [show (g.setSlot k s).slots k = s from Function.update_self ..]
    exact same
  · rw [show (g.setSlot i s).slots k = g.slots k from Function.update_of_ne here ..]

theorem settle_closes (active : g.opened = some i) (ended : Bool) (reason : GpuSpanReason) (now : Nat) :
    Closes g (g.settle i ended reason now).2 i reason := by
  refine ⟨active, rfl, rfl, ?_, fun k other => ?_⟩
  · show (Function.update g.slots i _ i).face = _
    rw [Function.update_self]
    rfl
  · show (Function.update g.slots i _ k).face = _
    rw [Function.update_of_ne other]

theorem verdict_ne {stamp : Bool} (invalid : reason ≠ .valid) :
    (if stamp then reason else .driverFailure) ≠ .valid := by
  split
  · exact invalid
  · nofun

theorem close_closes (active : g.opened = some i) (reason : GpuSpanReason) (now : Nat) :
    ∃ ok : Bool, Closes g (g.close answers i reason now).2 i (if ok then reason else .driverFailure) := by
  have same : SameFaces g ((g.timestamp answers i 1 .frame).2.endScope answers i).2 :=
    (SameFaces.issue answers _ _).trans (SameFaces.issue answers _ _)
  exact ⟨_, same.closes (settle_closes (same.opened.trans active) _ _ _)⟩

theorem closeSegment_same : SameFaces g (g.closeSegment answers i).2 := by
  unfold closeSegment
  dsimp only
  split
  · split
    · exact (SameFaces.issue answers _ _).trans (.setSlot rfl)
    · exact .setSlot rfl
  · exact .refl g

theorem closeApplication_closes (active : g.opened = some i) (reason : GpuSpanReason) (now : Nat) :
    ∃ ok : Bool, Closes g (g.closeApplication answers i reason now).2 i
      (if ok then reason else .driverFailure) := by
  have same : SameFaces g ((g.closeSegment answers i).2.endScope answers i).2 :=
    (closeSegment_same answers).trans (SameFaces.issue answers _ _)
  exact ⟨_, same.closes (settle_closes (same.opened.trans active) _ _ _)⟩

theorem SameFaces.givesUp (first : SameFaces g g') (rest : GivesUp g' g'') : GivesUp g g'' := by
  rcases rest with same | ⟨i, reason, invalid, closes⟩
  · exact .inl (first.trans same)
  · exact .inr ⟨i, reason, invalid, first.closes closes⟩

/-- A call on the open frame that leaves it open if it answers that all is well. -/
def Works (g : GpuSpanState) (r : GpuSpanReason × GpuSpanState) : Prop :=
  (r.1 = .valid → SameFaces g r.2) ∧ GivesUp g r.2

theorem Works.goes (same : SameFaces g g') (reason : GpuSpanReason) : Works g (reason, g') :=
  ⟨fun _ => same, .inl same⟩

theorem Works.after {r : GpuSpanReason × GpuSpanState} (same : SameFaces g g') (works : Works g' r) :
    Works g r :=
  ⟨fun valid => same.trans (works.1 valid), same.givesUp works.2⟩

theorem Works.sets {s : Slot} (same : SameFaces g g') (face : s.face = (g'.slots i).face)
    (reason : GpuSpanReason) : Works g (reason, g'.setSlot i s) :=
  .goes (same.trans (.setSlot face)) reason

theorem Works.timestamp (i : Fin kSlots) (index : Nat) (stamper : Stamper)
    {fails goes : GpuSpanState → GpuSpanReason × GpuSpanState}
    (failed : ∀ b, SameFaces g b → Works g (fails b)) (gone : ∀ b, SameFaces g b → Works g (goes b)) :
    Works g (match g.timestamp answers i index stamper with
      | (false, g) => fails g
      | (true, g) => goes g) := by
  have same : SameFaces g (g.timestamp answers i index stamper).2 := .issue answers _ _
  split
  · rename_i stamped
    rw [stamped] at same
    exact failed _ same
  · rename_i stamped
    rw [stamped] at same
    exact gone _ same

theorem close_works (active : g.opened = some i) (invalid : reason ≠ .valid) :
    Works g (g.close answers i reason now) := by
  obtain ⟨ok, closes⟩ := close_closes answers active reason now
  exact ⟨fun valid => absurd valid (verdict_ne invalid), .inr ⟨i, _, verdict_ne invalid, closes⟩⟩

theorem closeApplication_works (active : g.opened = some i) (invalid : reason ≠ .valid) :
    Works g (g.closeApplication answers i reason now) := by
  obtain ⟨ok, closes⟩ := closeApplication_closes answers active reason now
  exact ⟨fun valid => absurd valid (verdict_ne invalid), .inr ⟨i, _, verdict_ne invalid, closes⟩⟩

theorem closeOpen_givesUp (invalid : reason ≠ .valid) :
    GivesUp g (g.closeOpen answers reason now) := by
  unfold closeOpen
  split
  · exact .inl (.refl g)
  · rename_i i active
    split
    · exact (closeApplication_works answers active invalid).2
    · exact (close_works answers active invalid).2

theorem onOpen_works {owner : GpuSpanOwner} {act : Fin kSlots → GpuSpanReason × GpuSpanState}
    (works : ∀ i, g.opened = some i → Works g (act i)) : Works g (g.onOpen owner act) := by
  unfold onOpen
  dsimp only
  split
  · exact .goes (.refl g) _
  · split
    · exact .goes (.refl g) _
    · rename_i i active
      exact works i active

theorem endApplicationSegment_works (owner : GpuSpanOwner) :
    Works g (g.endApplicationSegment answers now owner) := by
  refine onOpen_works fun i active => ?_
  dsimp only
  split
  · exact closeApplication_works answers active nofun
  · refine .timestamp answers i _ _ (fun b same => ?_) fun b same => .sets same (by rfl) _
    exact .after same (closeApplication_works answers (same.opened.trans active) nofun)

theorem resumeApplicationSegment_works (owner : GpuSpanOwner) :
    Works g (g.resumeApplicationSegment answers now owner) := by
  refine onOpen_works fun i active => ?_
  dsimp only
  split
  · exact .goes (.refl g) _
  · refine .timestamp answers i _ _ (fun b same => ?_) fun b same => .sets same (by rfl) _
    exact .after same (closeApplication_works answers (same.opened.trans active) nofun)

theorem beginEye_works (eye : Nat) (owner : GpuSpanOwner) :
    Works g (g.beginEye answers eye now owner) := by
  refine onOpen_works fun i active => ?_
  dsimp only
  split
  · exact close_works answers active nofun
  · refine .timestamp answers i _ _ (fun b same => ?_) fun b same => .sets same (by rfl) _
    exact .after same (close_works answers (same.opened.trans active) nofun)

theorem endEye_works (eye : Nat) (owner : GpuSpanOwner) :
    Works g (g.endEye answers eye now owner) := by
  refine onOpen_works fun i active => ?_
  dsimp only
  split
  · exact close_works answers active nofun
  · refine .timestamp answers i _ _ (fun b same => ?_) fun b same => .sets same (by rfl) _
    exact .after same (close_works answers (same.opened.trans active) nofun)

theorem invalidateFrame_givesUp (owner : GpuSpanOwner) :
    GivesUp g (g.invalidateFrame answers now owner).2 := by
  refine (onOpen_works fun i active => ?_).2
  split
  · exact closeApplication_works answers active nofun
  · exact close_works answers active nofun

def Finishes (g g' : GpuSpanState) : Prop :=
  SameFaces g g' ∨ ∃ i reason, Closes g g' i reason

theorem finishFrame_finishes (owner : GpuSpanOwner) :
    Finishes g (g.finishFrame answers now owner).2 := by
  unfold finishFrame onOpen
  dsimp only
  split
  · exact .inl (.refl g)
  · split
    · exact .inl (.refl g)
    · rename_i i active
      obtain ⟨ok, closes⟩ := close_closes answers active
        (if (g.slots i).ended = 3 ∧ (g.slots i).activeEye = none then .valid else .incomplete) now
      exact .inr ⟨i, _, closes⟩

theorem finishApplicationFrame_finishes (owner : GpuSpanOwner) :
    Finishes g (g.finishApplicationFrame answers now owner).2 ∧
      ((g.finishApplicationFrame answers now owner).1 ≠ .valid →
        GivesUp g (g.finishApplicationFrame answers now owner).2) := by
  unfold finishApplicationFrame onOpen
  dsimp only
  split
  · exact ⟨.inl (.refl g), fun _ => .inl (.refl g)⟩
  · split
    · exact ⟨.inl (.refl g), fun _ => .inl (.refl g)⟩
    · rename_i i active
      split
      · exact ⟨.inl (.refl g), fun _ => .inl (.refl g)⟩
      · split
        · have works : Works g (g.closeApplication answers i .incomplete now) :=
            closeApplication_works answers active nofun
          have gives := works.2
          refine ⟨?_, fun _ => gives⟩
          rcases gives with same | ⟨k, reason, _, closes⟩
          · exact .inl same
          · exact .inr ⟨k, reason, closes⟩
        · have same : SameFaces g (g.endScope answers i).2 := .issue answers _ _
          have closes := fun ended reason =>
            same.closes (settle_closes (same.opened.trans active) ended reason now)
          exact ⟨.inr ⟨i, _, closes _ _⟩, fun invalid => .inr ⟨i, _, invalid, closes _ _⟩⟩

/-- The driver has not let a scope begin, or has not taken its first stamp. -/
def Refused (e : Issued) : Prop :=
  ∃ i, e.call = .begins i false ∨ e.call = .timestamp i 0 false

/-- A begin: the frame before is given up if it is still open, and the new one is in a
slot that was free, or in none. The driver's refusals are on record. -/
structure Begins (g : GpuSpanState) (sequence : Nat) (r : GpuSpanReason × GpuSpanState) : Prop where
  owner : r.2.owner = g.owner
  taken : r.1 = .valid → ∃ b i, GivesUp g b ∧ (b.slots i).state = .free ∧ r.2.opened = some i ∧
    (r.2.slots i).state = .opened ∧ (r.2.slots i).sequence = sequence ∧
    ∀ k ≠ i, (r.2.slots k).face = (b.slots k).face
  refused : r.1 ≠ .valid → GivesUp g r.2 ∨ ∃ e ∈ r.2.log, Refused e

theorem GivesUp.same (first : GivesUp g g') (rest : SameFaces g' g'') : GivesUp g g'' := by
  rcases first with same | ⟨i, reason, invalid, closes⟩
  · exact .inl (same.trans rest)
  · refine .inr ⟨i, reason, invalid, closes.active, rest.opened.trans closes.opened,
      rest.owner.trans closes.owner, (rest.faces i).trans closes.face, fun k other => ?_⟩
    exact (rest.faces k).trans (closes.others k other)

theorem GivesUp.owner (gives : GivesUp g g') : g'.owner = g.owner := by
  rcases gives with same | ⟨_, _, _, closes⟩
  · exact same.owner
  · exact closes.owner

theorem takeSlot_same : SameFaces g (g.takeSlot answers).2 ∧
    (∀ i, (g.takeSlot answers).1 = .ok i → (g.slots i).state = .free) ∧
    (g.takeSlot answers).1 ≠ .error .valid := by
  unfold takeSlot
  split
  · exact ⟨.refl g, nofun, nofun⟩
  · rename_i i found
    have free : (g.slots i).state = .free := by simpa using List.find?_some found
    split
    · refine ⟨.refl g, fun k isFound => ?_, nofun⟩
      cases isFound
      exact free
    · have same : SameFaces g (g.create answers i).2 := .issue answers _ _
      split
      · rename_i created
        rw [created] at same
        exact ⟨same, nofun, nofun⟩
      · rename_i created
        rw [created] at same
        refine ⟨same.trans (.setSlot (by rfl)), fun k isFound => ?_, nofun⟩
        cases isFound
        exact free

theorem enter_givesUp (g : GpuSpanState) (sequence now : Nat) (owner : GpuSpanOwner) :
    GivesUp g (g.enter answers sequence now owner).2 ∧
      (∀ i, (g.enter answers sequence now owner).1 = .ok i →
        ((g.enter answers sequence now owner).2.slots i).state = .free) ∧
      (g.enter answers sequence now owner).1 ≠ .error .valid := by
  unfold enter
  dsimp only
  split
  · rename_i checked
    exact ⟨.inl (.refl g), nofun, fun isError => checked (Except.error.inj isError)⟩
  · split
    · exact ⟨.inl (.refl g), nofun, nofun⟩
    · have started : SameFaces g { g with lastSequence := sequence } := ⟨fun _ => rfl, rfl, rfl⟩
      have closed : GivesUp g ({ g with lastSequence := sequence }.closeOpen answers .incomplete now) :=
        started.givesUp (closeOpen_givesUp answers nofun)
      split
      · exact ⟨closed, nofun, nofun⟩
      · have taken := takeSlot_same answers
          (g := { g with lastSequence := sequence }.closeOpen answers .incomplete now)
        refine ⟨closed.same taken.1, fun i isFound => ?_, taken.2.2⟩
        exact (congrArg Prod.fst (taken.1.faces i)).trans (taken.2.1 i isFound)

theorem close_log {e : Issued} (mem : e ∈ g.log) : e ∈ (g.close answers i reason now).2.log :=
  List.mem_append_left _ (List.mem_append_left _ mem)

theorem closeApplication_log {e : Issued} (mem : e ∈ g.log) :
    e ∈ (g.closeApplication answers i reason now).2.log := by
  have kept : e ∈ (g.closeSegment answers i).2.log := by
    unfold closeSegment
    dsimp only
    split
    · split
      · exact List.mem_append_left _ mem
      · exact mem
    · exact mem
  exact List.mem_append_left _ kept

theorem Begins.of_slot {b : GpuSpanState} {sequence : Nat} (gives : GivesUp g b)
    (free : (b.slots i).state = .free) (first : Slot) (opens : Slot → Slot) (stamper : Stamper)
    (fails goes : GpuSpanState → GpuSpanReason × GpuSpanState)
    (isOpened : ∀ s, (opens s).state = .opened) (isSequence : (opens first).sequence = sequence)
    (failed : ∀ c, c.opened = some i → (fails c).1 ≠ .valid ∧ (fails c).2.owner = c.owner ∧
      ∀ e ∈ c.log, e ∈ (fails c).2.log)
    (gone : ∀ c, c.opened = some i → (goes c).1 = .valid ∧ SameFaces c (goes c).2) :
    Begins g sequence (match (b.setSlot i first).beginScope answers i with
      | (false, c) => c.beginFailed i now
      | (true, c) =>
        match { c.setSlot i (opens (c.slots i)) with opened := some i }.timestamp answers i 0 stamper with
        | (false, c) => fails c
        | (true, c) => goes c) := by
  split
  · rename_i c begun
    obtain rfl : ((b.setSlot i first).beginScope answers i).2 = c := congrArg Prod.snd begun
    have refused : (answers (b.setSlot i first).asked).ok = false := congrArg Prod.fst begun
    refine ⟨gives.owner, nofun, fun _ => .inr ⟨⟨.begins i false, .frame⟩, ?_, i, .inl rfl⟩⟩
    rw [← refused]
    exact List.mem_append_right _ (List.mem_singleton_self _)
  · rename_i c begun
    obtain rfl : ((b.setSlot i first).beginScope answers i).2 = c := congrArg Prod.snd begun
    split
    · rename_i d stamped
      have isD := congrArg Prod.snd stamped
      have refused := congrArg Prod.fst stamped
      dsimp only at isD refused
      obtain ⟨invalid, owner, log⟩ := failed d (by rw [← isD]; rfl)
      refine ⟨?_, fun valid => absurd valid invalid, fun _ => .inr
        ⟨⟨.timestamp i 0 false, stamper⟩, log _ ?_, i, .inr rfl⟩⟩
      · rw [owner, ← isD]
        exact gives.owner
      · rw [← isD, ← refused]
        exact List.mem_append_right _ (List.mem_singleton_self _)
    · rename_i d stamped
      have isD := congrArg Prod.snd stamped
      dsimp only at isD
      obtain ⟨valid, same⟩ := gone d (by rw [← isD]; rfl)
      have slots : d.slots = Function.update (Function.update b.slots i first) i
          (opens (Function.update b.slots i first i)) := by
        rw [← isD]
        rfl
      refine ⟨?_, fun _ => ⟨b, i, gives, free, ?_, ?_, ?_, fun k other => ?_⟩,
        fun invalid => absurd valid invalid⟩
      · rw [same.owner, ← isD]
        exact gives.owner
      · rw [same.opened, ← isD]
        rfl
      · rw [show ((goes d).2.slots i).state = _ from congrArg Prod.fst (same.faces i), slots]
        simp [Slot.face, isOpened]
      · rw [show ((goes d).2.slots i).sequence = _ from congrArg (fun face => face.2.1) (same.faces i), slots]
        simp [Slot.face, isSequence]
      · rw [same.faces k, slots]
        simp [other]

theorem Begins.of_error {b : GpuSpanState} {sequence : Nat} (gives : GivesUp g b)
    (invalid : reason ≠ .valid) : Begins g sequence (reason, b) :=
  ⟨gives.owner, fun valid => absurd valid invalid, fun _ => .inl gives⟩

theorem beginFrame_begins (sequence sourceFrame : Nat) (owner : GpuSpanOwner) :
    Begins g sequence (g.beginFrame answers sequence sourceFrame now owner) := by
  obtain ⟨gives, free, invalid⟩ := enter_givesUp answers g sequence now owner
  unfold beginFrame
  split
  · rename_i reason b entered
    rw [entered] at gives invalid
    exact .of_error gives fun valid => invalid (by rw [valid])
  · rename_i i b entered
    rw [entered] at gives free
    refine Begins.of_slot answers gives (free i rfl)
      { b.slots i with sequence := sequence, sourceFrame := sourceFrame }
      (fun s => { s with state := .opened }) .frame (fun c => c.close answers i .driverFailure now)
      (fun c => (.valid, c)) ?_ ?_ (fun c _ => ?_) (fun c _ => ?_)
    · exact fun _ => rfl
    · rfl
    · exact ⟨verdict_ne nofun, rfl, fun e mem => close_log answers mem⟩
    · exact ⟨rfl, .refl c⟩

theorem beginApplicationFrame_begins (sequence sourceFrame : Nat) (owner : GpuSpanOwner) :
    Begins g sequence (g.beginApplicationFrame answers sequence sourceFrame now owner) := by
  obtain ⟨gives, free, invalid⟩ := enter_givesUp answers g sequence now owner
  unfold beginApplicationFrame
  split
  · rename_i reason b entered
    rw [entered] at gives invalid
    exact .of_error gives fun valid => invalid (by rw [valid])
  · rename_i i b entered
    rw [entered] at gives free
    refine Begins.of_slot answers gives (free i rfl)
      { created := true, application := true, sequence := sequence, sourceFrame := sourceFrame }
      (fun s => { s with state := .opened, segmentCount := 1 }) .segment
      (fun c => c.closeApplication answers i .driverFailure now)
      (fun c => (.valid, c.setSlot i { c.slots i with segmentOpen := true })) ?_ ?_ (fun c active => ?_)
      (fun c _ => ?_)
    · exact fun _ => rfl
    · rfl
    · have works : Works c (c.closeApplication answers i .driverFailure now) :=
        closeApplication_works answers active nofun
      exact ⟨verdict_ne nofun, works.2.owner, fun e mem => closeApplication_log answers mem⟩
    · exact ⟨rfl, .setSlot (by rfl)⟩

theorem sampled_same (g : GpuSpanState) (i : Fin kSlots) (now : Nat) :
    SameFaces g (g.sampled answers i now).2 := by
  have asked : SameFaces g (g.pollDriver answers i).2.2 := ⟨fun _ => rfl, rfl, rfl⟩
  unfold sampled
  dsimp only
  split
  · exact .refl g
  split
  · exact .refl g
  unfold pollDriver at asked ⊢
  cases (answers g.asked).poll with
  | pending => exact asked
  | failed => exact asked
  | ready =>
    dsimp only
    split
    · exact asked
    split
    · exact asked
    · exact asked

/-- A result of a slot whose frame is over, as it was before the poll. -/
structure ResultOf (g : GpuSpanState) (i : Fin kSlots) (result : GpuSpanResult) : Prop where
  past : (g.slots i).state = .pending ∨ (g.slots i).state = .failed
  sequence : result.sequence = (g.slots i).sequence
  valid : result.reason = .valid → (g.slots i).state = .pending ∧ (g.slots i).reason = .valid

structure Reports (g g' : GpuSpanState) (results : List (Fin kSlots × GpuSpanResult)) : Prop where
  opened : g'.opened = g.opened
  owner : g'.owner = g.owner
  reported : ∀ p ∈ results, ResultOf g p.1 p.2 ∧ (g'.slots p.1).state = .free
  kept : ∀ k, (∀ p ∈ results, p.1 ≠ k) → (g'.slots k).face = (g.slots k).face
  once : (results.map Prod.fst).Nodup

theorem resultOf_sequence (s : Slot) (reason : GpuSpanReason) (raw : GpuSpanRawSample) (now : Nat) :
    (resultOf s reason raw now).sequence = s.sequence := by
  unfold resultOf
  split
  · split <;> rfl
  · split <;> rfl

theorem pollSlot_reports (i : Fin kSlots) :
    Reports g (g.pollSlot answers i now).2 ((g.pollSlot answers i now).1.toList.map fun r => (i, r)) := by
  have same := sampled_same answers g i now
  unfold pollSlot
  dsimp only
  split
  · exact ⟨rfl, rfl, nofun, fun _ _ => rfl, List.nodup_nil⟩
  · rename_i waits
    have past : (g.slots i).state = .pending ∨ (g.slots i).state = .failed := by
      by_contra neither
      exact waits ⟨fun pending => neither (.inl pending), fun failed => neither (.inr failed)⟩
    split
    · rename_i sampling
      rw [sampling] at same
      exact ⟨same.opened, same.owner, nofun, fun k _ => same.faces k, List.nodup_nil⟩
    · rename_i reason raw b sampling
      rw [sampling] at same
      obtain ⟨_, opened, slots⟩ := retire_same answers b i
        ((resultOf (g.slots i) reason raw now).reason ≠ .valid ∧
          (resultOf (g.slots i) reason raw now).reason ≠ .badPair ∧
          (resultOf (g.slots i) reason raw now).reason ≠ .incomplete)
      refine ⟨opened.trans same.opened, ?_, ?_, fun k others => ?_, List.nodup_singleton i⟩
      · unfold retire
        dsimp only
        split
        · exact same.owner
        · exact same.owner
      · intro p mem
        rw [show p = (i, resultOf (g.slots i) reason raw now) by simpa using mem]
        refine ⟨⟨past, resultOf_sequence .., fun valid => ?_⟩, ?_⟩
        · obtain ⟨live, _, isVerdict⟩ := sampled_some answers sampling (resultOf_valid valid)
          refine ⟨past.resolve_right live, ?_⟩
          exact (verdict_valid (isVerdict.symm.trans (resultOf_valid valid))).1
        · dsimp only
          rw [slots, Function.update_self]
      · have other : k ≠ i := by
          rintro rfl
          exact others (k, resultOf (g.slots k) reason raw now) (by simp) rfl
        rw [slots, Function.update_of_ne other]
        exact same.faces k

theorem ResultOf.before {result : GpuSpanResult} (h : ResultOf g' i result)
    (same : (g'.slots i).face = (g.slots i).face) : ResultOf g i result := by
  have state : (g'.slots i).state = (g.slots i).state := congrArg Prod.fst same
  have sequence : (g'.slots i).sequence = (g.slots i).sequence := congrArg (fun f => f.2.1) same
  have reason : (g'.slots i).reason = (g.slots i).reason := congrArg (fun f => f.2.2) same
  refine ⟨?_, ?_, ?_⟩
  · rw [← state]
    exact h.past
  · rw [← sequence]
    exact h.sequence
  · rw [← state, ← reason]
    exact h.valid

theorem Reports.append {l m : List (Fin kSlots × GpuSpanResult)} (first : Reports g g' l)
    (rest : Reports g' g'' m) (apart : ∀ p ∈ l, ∀ q ∈ m, p.1 ≠ q.1) : Reports g g'' (l ++ m) where
  opened := rest.opened.trans first.opened
  owner := rest.owner.trans first.owner
  reported := by
    intro p mem
    rcases List.mem_append.mp mem with left | right
    · obtain ⟨result, free⟩ := first.reported p left
      refine ⟨result, ?_⟩
      have same := rest.kept p.1 fun q inRest isSame => apart p left q inRest isSame.symm
      exact (congrArg Prod.fst same).trans free
    · obtain ⟨result, free⟩ := rest.reported p right
      exact ⟨result.before (first.kept p.1 fun q inFirst isSame => apart q inFirst p right isSame), free⟩
  kept := by
    intro k others
    rw [rest.kept k fun p mem => others p (List.mem_append_right _ mem),
      first.kept k fun p mem => others p (List.mem_append_left _ mem)]
  once := by
    rw [List.map_append, List.nodup_append]
    refine ⟨first.once, rest.once, ?_⟩
    intro a inFirst b inRest
    obtain ⟨p, pMem, rfl⟩ := List.mem_map.mp inFirst
    obtain ⟨q, qMem, rfl⟩ := List.mem_map.mp inRest
    exact apart p pMem q qMem

theorem pollSlots_reports (l : List (Fin kSlots)) (once : l.Nodup) (now : Nat) (g : GpuSpanState) :
    Reports g (pollSlots answers l now g).2 (pollSlots answers l now g).1 ∧
      ∀ p ∈ (pollSlots answers l now g).1, p.1 ∈ l := by
  induction l generalizing g with
  | nil => exact ⟨⟨rfl, rfl, nofun, fun _ _ => rfl, List.nodup_nil⟩, nofun⟩
  | cons i rest ih =>
    obtain ⟨unused, later⟩ := List.nodup_cons.mp once
    have first : Reports g (g.pollSlot answers i now).2
        ((g.pollSlot answers i now).1.toList.map fun r => (i, r)) := pollSlot_reports answers i
    unfold pollSlots
    split
    · rename_i b polling
      rw [polling] at first
      obtain ⟨reports, within⟩ := ih later b
      exact ⟨first.append reports nofun, fun p mem => List.mem_cons_of_mem i (within p mem)⟩
    · rename_i result b polling
      rw [polling] at first
      obtain ⟨reports, within⟩ := ih later b
      refine ⟨first.append reports ?_, ?_⟩
      · intro p isFirst q isLater isSame
        rw [show p = (i, result) by simpa using isFirst] at isSame
        have isI : i = q.1 := isSame
        exact unused (isI ▸ within q isLater)
      · intro p mem
        rcases List.mem_cons.mp mem with rfl | mem
        · exact List.mem_cons_self
        · exact List.mem_cons_of_mem i (within p mem)

theorem poll_reports (g : GpuSpanState) (now : Nat) (owner : GpuSpanOwner) :
    Reports g (g.poll answers now owner).2 (g.poll answers now owner).1 := by
  unfold poll
  split
  · exact ⟨rfl, rfl, nofun, fun _ _ => rfl, List.nodup_nil⟩
  · exact (pollSlots_reports answers _ (List.nodup_finRange kSlots) now g).1

end

end GpuSpanState

end EdvrPatch.Gpu
