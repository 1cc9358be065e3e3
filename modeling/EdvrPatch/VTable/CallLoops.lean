import EdvrPatch.VTable.Hook

/-! Call loops. A loop is closed by a forward that is set, so by a replace or a reclaim;
a slot that is written closes none. -/
namespace EdvrPatch.VTable

open Lib

def Shared.Reached (t : Shared) (h slot : Nat) : Prop :=
  Reaches (t.table slot).forward (t.table slot).entry (.thunk h)

def Shared.SlotEnds (t : Shared) (slot : Nat) : Prop :=
  Ends (t.table slot).forward (t.table slot).entry

def Shared.LoopFree (t : Shared) : Prop :=
  ∀ slot e, Ends (t.table slot).forward e

/-- A patch with the hook's own thunk. An entry that is known as the module's is. -/
structure Patch.Classified (h : Nat) (p : Patch) : Prop where
  own : p.replacement = h
  owner : p.lastForeignIsOwner = true → ∃ n, p.lastForeign = some (.code n)

theorem Slot.forward_cells (s : Slot) (h : Nat) (e : Entry) :
    ({ s with cells := Function.update s.cells h (some e) } : Slot).forward = redirect s.forward (.thunk h) e := by
  funext a
  cases a with
  | code n =>
    rfl
  | tool n f =>
    rfl
  | thunk n =>
    by_cases same : n = h
    · subst same
      rw [redirect_self]
      exact Function.update_self ..
    · rw [redirect_of_ne fun equal => same (Entry.thunk.inj equal)]
      exact Function.update_of_ne same ..

namespace Shared

variable {t : Shared} {h : Nat}

theorem writeEntry_forward (t : Shared) (slot : Nat) (value : Entry) (writes : Bool) (other : Nat) :
    ((t.writeEntry slot value writes).table other).forward = (t.table other).forward := by
  unfold writeEntry
  split
  · dsimp only
    by_cases same : other = slot
    · subst same
      rw [Function.update_self]
      rfl
    · rw [Function.update_of_ne same]
  · rfl

theorem writeEntry_entry (t : Shared) (slot : Nat) (value : Entry) :
    ((t.writeEntry slot value true).table slot).entry = value := by
  change (Function.update t.table slot _ slot).entry = value
  rw [Function.update_self]

variable {slot : Nat}

theorem writeEntry_of_ne (t : Shared) {other : Nat} (apart : other ≠ slot) (value : Entry)
    (writes : Bool) : (t.writeEntry slot value writes).table other = t.table other := by
  unfold writeEntry
  split
  · exact Function.update_of_ne apart ..
  · rfl

theorem setCell_forward (t : Shared) (slot h : Nat) (value : Entry) :
    ((t.setCell slot h value).table slot).forward = redirect (t.table slot).forward (.thunk h) value := by
  unfold setCell
  dsimp only
  rw [Function.update_self]
  exact Slot.forward_cells _ h value

theorem setCell_of_ne (t : Shared) {other : Nat} (apart : other ≠ slot) (h : Nat) (value : Entry) :
    (t.setCell slot h value).table other = t.table other :=
  Function.update_of_ne apart ..

theorem setCell_entry (t : Shared) (slot h : Nat) (value : Entry) (other : Nat) :
    ((t.setCell slot h value).table other).entry = (t.table other).entry := by
  by_cases same : other = slot
  · subst same
    unfold setCell
    dsimp only
    rw [Function.update_self]
  · rw [setCell_of_ne t same]

namespace LoopFree

theorem writeEntry (free : t.LoopFree) (slot : Nat) (value : Entry) (writes : Bool) :
    (t.writeEntry slot value writes).LoopFree := by
  intro other e
  rw [writeEntry_forward]
  exact free other e

theorem setHook (free : t.LoopFree) (hook : Hook) : (t.setHook h hook).LoopFree :=
  free

theorem setCell (free : t.LoopFree) {slot : Nat} (apart : ¬t.Reached h slot) :
    (t.setCell slot h (t.table slot).entry).LoopFree := by
  intro other e
  by_cases same : other = slot
  · subst same
    rw [setCell_forward]
    exact ends_redirect (free other) apart e
  · rw [setCell_of_ne t same]
    exact free other e

theorem installs (free : t.LoopFree) (writes : Nat → Bool) (patches : List Patch) (written : Nat) :
    (installs writes t written patches).1.LoopFree := by
  induction patches generalizing t written with
  | nil => exact free
  | cons p rest ih =>
    unfold Shared.installs
    split
    · exact ih (free.writeEntry _ _ _) (written + 1)
    · exact free

theorem rollsBack {undoes : Nat → Bool} (free : t.LoopFree) (patches : List Patch) (i : Nat) :
    (rollsBack undoes t i patches).LoopFree := by
  induction patches generalizing t i with
  | nil => exact free
  | cons p _ ih => exact ih (free.writeEntry _ _ _) (i + 1)

theorem registers (free : t.LoopFree) (patches : List Patch) : (registers h t patches).LoopFree := by
  induction patches generalizing t with
  | nil => exact free
  | cons p rest ih =>
    unfold Shared.registers
    split
    · exact free
    · exact ih free

theorem restores {answers : Nat → PatchAnswer} (free : t.LoopFree) (patches : List Patch) (i : Nat) :
    (restores answers t i patches).LoopFree := by
  induction patches generalizing t i with
  | nil => exact free
  | cons p rest ih =>
    unfold Shared.restores
    split
    · exact ih (free.writeEntry _ _ _) (i + 1)
    · exact ih free (i + 1)

end LoopFree

/-! A pass. -/

/-- While a pass goes on, a slot that is listed as quiet has the hook's thunk on top, or
does not lead to it. -/
structure Passing (t : Shared) (h : Nat) (quietSlots : List Nat) : Prop where
  free : t.LoopFree
  quiet : ∀ slot ∈ quietSlots, (t.table slot).entry = .thunk h ∨ ¬t.Reached h slot

theorem not_reached_of_code {n : Nat} (isCode : (t.table slot).entry = .code n) :
    ¬t.Reached h slot := by
  rintro ⟨m, reached⟩
  rw [isCode] at reached
  cases m with
  | zero => cases reached
  | succ m => cases reached

variable {quietSlots : List Nat} {p : Patch}

theorem Passing.adopts (passing : t.Passing p.replacement quietSlots)
    (apart : ¬t.Reached p.replacement p.slot) (writes : Bool) :
    (t.adopts p (t.table p.slot).entry writes).1.Passing p.replacement quietSlots := by
  refine ⟨(passing.free.setCell apart).writeEntry _ _ _, fun slot mem => ?_⟩
  by_cases same : slot = p.slot
  · subst same
    cases writes with
    | true => exact .inl (writeEntry_entry ..)
    | false =>
      refine .inr fun reached => apart ?_
      change Reaches ((t.setCell p.slot p.replacement _).table p.slot).forward
        ((t.setCell p.slot p.replacement _).table p.slot).entry _ at reached
      rw [setCell_forward, setCell_entry] at reached
      exact Reaches.of_redirect reached
  · have kept : (t.adopts p (t.table p.slot).entry writes).1.table slot = t.table slot :=
      (writeEntry_of_ne _ same ..).trans (setCell_of_ne t same ..)
    unfold Reached
    rw [kept]
    exact passing.quiet slot mem

theorem classifies_classified (classified : p.Classified h) (now : Entry) :
    (t.classifies h p now).Classified h ∧ (t.classifies h p now).lastForeign = some now ∧
      (t.classifies h p now).slot = p.slot := by
  unfold classifies
  split
  · rename_i known
    exact ⟨classified, known, rfl⟩
  · refine ⟨⟨classified.own, fun owner => ?_⟩, rfl, rfl⟩
    cases now with
    | code n => exact ⟨n, rfl⟩
    | thunk n => exact nomatch (Bool.and_false _).symm.trans owner
    | tool n f => exact nomatch (Bool.and_false _).symm.trans owner

theorem Passing.reclaimsPatch (passing : t.Passing h quietSlots) (classified : p.Classified h)
    (answer : PatchAnswer) :
    (t.reclaimsPatch h quietSlots answer p).1.Passing h quietSlots ∧
      (t.reclaimsPatch h quietSlots answer p).2.Classified h := by
  unfold Shared.reclaimsPatch
  dsimp only
  split
  · exact ⟨passing, classified⟩
  · rename_i foreign
    split
    · exact ⟨passing, classified⟩
    · split
      · exact ⟨passing, classified⟩
      · obtain ⟨known, last, slot⟩ := @classifies_classified t h p classified (t.table p.slot).entry
        generalize t.classifies h p (t.table p.slot).entry = q at known last slot ⊢
        rw [← slot] at foreign last ⊢
        split
        · exact ⟨passing, known⟩
        · split
          · exact ⟨passing, known⟩
          · rename_i vouched
            split
            · exact ⟨passing, known.own, known.owner⟩
            · split
              · exact ⟨passing, known⟩
              · rw [classified.own] at foreign
                obtain rfl := known.own
                refine ⟨passing.adopts ?_ answer.writes, rfl, known.owner⟩
                by_cases owner : q.lastForeignIsOwner = true
                · obtain ⟨n, isCode⟩ := known.owner owner
                  exact not_reached_of_code (Option.some.inj (last.symm.trans isCode))
                · have listed : q.slot ∈ quietSlots := by simp_all
                  exact (passing.quiet q.slot listed).resolve_left (by simp_all)

theorem Passing.reclaimsAll (passing : t.Passing h quietSlots) (answers : Nat → PatchAnswer)
    {patches : List Patch} (classified : ∀ p ∈ patches, p.Classified h) (i : Nat) :
    (reclaimsAll h quietSlots answers t i patches).1.Passing h quietSlots ∧
      ∀ p ∈ (reclaimsAll h quietSlots answers t i patches).2, p.Classified h := by
  induction patches generalizing t i with
  | nil => exact ⟨passing, classified⟩
  | cons p rest ih =>
    obtain ⟨first, known⟩ := passing.reclaimsPatch (classified p List.mem_cons_self) (answers i)
    obtain ⟨later, others⟩ := ih first (fun q mem => classified q (List.mem_cons_of_mem _ mem)) (i + 1)
    exact ⟨later, List.forall_mem_cons.mpr ⟨known, others⟩⟩

/-! Runs. -/

structure Sound (t : Shared) : Prop where
  free : t.LoopFree
  classified : ∀ h, ∀ p ∈ (t.hooks h).patches, p.Classified h

theorem classified_setHook (classified : ∀ h, ∀ p ∈ (t.hooks h).patches, p.Classified h) {hook : Hook}
    (known : ∀ p ∈ hook.patches, p.Classified h) :
    ∀ h', ∀ p ∈ ((t.setHook h hook).hooks h').patches, p.Classified h' := by
  intro h'
  unfold setHook
  by_cases same : h' = h
  · subst same
    dsimp only
    rw [Function.update_self]
    exact known
  · dsimp only
    rw [Function.update_of_ne same]
    exact classified h'

/-! The table's own functions leave the hooks alone. -/

theorem writeEntry_hooks (t : Shared) (slot : Nat) (value : Entry) (writes : Bool) :
    (t.writeEntry slot value writes).hooks = t.hooks := by
  unfold writeEntry
  split <;> rfl

theorem installs_hooks (writes : Nat → Bool) (patches : List Patch) (t : Shared) (written : Nat) :
    (installs writes t written patches).1.hooks = t.hooks := by
  induction patches generalizing t written with
  | nil => rfl
  | cons p rest ih =>
    unfold installs
    split
    · rw [ih, writeEntry_hooks]
    · rfl

theorem rollsBack_hooks {undoes : Nat → Bool} (patches : List Patch) (t : Shared) (i : Nat) :
    (rollsBack undoes t i patches).hooks = t.hooks := by
  induction patches generalizing t i with
  | nil => rfl
  | cons p rest ih =>
    unfold rollsBack
    rw [ih, writeEntry_hooks]

theorem registers_hooks (patches : List Patch) (t : Shared) : (registers h t patches).hooks = t.hooks := by
  induction patches generalizing t with
  | nil => rfl
  | cons p rest ih =>
    unfold registers
    split
    · rfl
    · rw [ih]

theorem restores_hooks {answers : Nat → PatchAnswer} (patches : List Patch) (t : Shared) (i : Nat) :
    (restores answers t i patches).hooks = t.hooks := by
  induction patches generalizing t i with
  | nil => rfl
  | cons p rest ih =>
    unfold restores
    split
    · rw [ih, writeEntry_hooks]
    · rw [ih]

theorem reclaimsPatch_hooks (t : Shared) (quietSlots : List Nat) (answer : PatchAnswer) (p : Patch) :
    (t.reclaimsPatch h quietSlots answer p).1.hooks = t.hooks := by
  unfold reclaimsPatch
  dsimp only
  split
  · rfl
  · split
    · rfl
    · split
      · rfl
      · split
        · rfl
        · split
          · rfl
          · split
            · rfl
            · split
              · rfl
              · exact writeEntry_hooks ..

theorem reclaimsAll_hooks (quietSlots : List Nat) (answers : Nat → PatchAnswer) (patches : List Patch) (t : Shared)
    (i : Nat) : (reclaimsAll h quietSlots answers t i patches).1.hooks = t.hooks := by
  induction patches generalizing t i with
  | nil => rfl
  | cons p rest ih =>
    exact (ih _ (i + 1)).trans (reclaimsPatch_hooks t ..)

namespace Sound

theorem writeEntry (sound : t.Sound) (slot : Nat) (value : Entry) (writes : Bool) :
    (t.writeEntry slot value writes).Sound :=
  ⟨sound.free.writeEntry slot value writes, by rw [writeEntry_hooks]; exact sound.classified⟩

theorem attach (sound : t.Sound) (probed : Nat) : (t.attach h probed).Sound := by
  unfold Shared.attach
  split
  · exact sound
  · exact ⟨sound.free, classified_setHook sound.classified nofun⟩

theorem setImplementationModule (sound : t.Sound) : (t.setImplementationModule h).Sound :=
  ⟨sound.free, classified_setHook sound.classified (sound.classified h)⟩

theorem replace (sound : t.Sound) {index : Nat} {origOut readable : Bool}
    (apart : t.stages h index readable = true → origOut = true → ¬t.Reached h index) :
    (t.replace h index h origOut readable).Sound := by
  have known : ∀ p ∈ (t.hooks h).patches ++
      [{ slot := index, replacement := h, original := (t.table index).entry, origOut := origOut }],
      Patch.Classified h p := by
    intro p mem
    obtain old | new := List.mem_append.mp mem
    · exact sound.classified h p old
    · cases List.mem_singleton.mp new
      exact ⟨rfl, nofun⟩
  unfold Shared.replace
  split
  · rename_i staged
    cases origOut with
    | true => exact ⟨sound.free.setCell (apart staged rfl), classified_setHook sound.classified known⟩
    | false => exact ⟨sound.free, classified_setHook sound.classified known⟩
  · exact sound

theorem commit (sound : t.Sound) (writes undoes : Nat → Bool) : (t.commit h writes undoes).Sound := by
  have installed := sound.free.installs writes (t.hooks h).patches 0
  have hooks := installs_hooks writes (t.hooks h).patches t 0
  unfold Shared.commit
  dsimp only
  split
  · exact sound
  · generalize installs writes t 0 (t.hooks h).patches = r at installed hooks ⊢
    obtain ⟨t', written⟩ := r
    split
    · refine ⟨installed.rollsBack _ 0, classified_setHook ?_ nofun⟩
      rw [rollsBack_hooks, hooks]
      exact sound.classified
    · refine ⟨LoopFree.registers (installed.setHook _) _, ?_⟩
      rw [registers_hooks]
      exact classified_setHook (hooks ▸ sound.classified) (sound.classified h)

theorem uninstall (sound : t.Sound) (answers : Nat → PatchAnswer) : (t.uninstall h answers).Sound := by
  unfold Shared.uninstall
  dsimp only
  split
  · exact sound
  · split
    · refine ⟨sound.free.restores _ 0, classified_setHook ?_ nofun⟩
      rw [restores_hooks]
      exact sound.classified
    · exact ⟨sound.free, classified_setHook sound.classified nofun⟩

theorem reclaim (sound : t.Sound) {quietSlots : List Nat} (honest : ∀ slot ∈ quietSlots, ¬t.Reached h slot)
    (answers : Nat → PatchAnswer) : (t.reclaim h quietSlots answers).Sound := by
  have passing : t.Passing h quietSlots := ⟨sound.free, fun slot mem => .inr (honest slot mem)⟩
  have passed := passing.reclaimsAll answers (sound.classified h) 0
  have hooks := reclaimsAll_hooks (h := h) quietSlots answers (t.hooks h).patches t 0
  unfold Shared.reclaim
  split
  · exact sound
  · exact ⟨passed.1.free, classified_setHook (by rw [hooks]; exact sound.classified) passed.2⟩

end Sound

end Shared

/-- A slot that is vouched for does not lead to the hook's thunk. -/
def Honest (t : Shared) : Move → Prop
  | .reclaim h quietSlots _ => ∀ slot ∈ quietSlots, ¬t.Reached h slot
  | _ => True

def Apart (t : Shared) : Move → Prop
  | .replace h index origOut readable => t.stages h index readable = true → origOut = true → ¬t.Reached h index
  | _ => True

/-- Every move of a run is as `P` says, in the state it is made in. -/
def Along (P : Shared → Move → Prop) : Shared → List Move → Prop
  | _, [] => True
  | t, move :: rest => P t move ∧ Along P (t.move move) rest

def Shared.run (t : Shared) (moves : List Move) : Shared :=
  moves.foldl Shared.move t

variable {t : Shared}

theorem Shared.Sound.move (sound : t.Sound) {move : Move} (honest : Honest t move)
    (apart : Apart t move) : (t.move move).Sound := by
  cases move with
  | attach h probed => exact sound.attach probed
  | setImplementationModule h => exact sound.setImplementationModule
  | replace h index origOut readable => exact sound.replace apart
  | commit h writes undoes => exact sound.commit writes undoes
  | reclaim h quietSlots answers => exact sound.reclaim honest answers
  | uninstall h answers => exact sound.uninstall answers
  | moduleWrites slot n => exact sound.writeEntry slot _ true
  | toolWrites slot n clean => exact sound.writeEntry slot _ true

theorem Shared.init_sound (codes : Nat → Nat) : (Shared.init codes).Sound := by
  refine ⟨fun slot e => ?_, nofun⟩
  induction e with
  | code n => exact ends_of_none rfl
  | thunk hook => exact ends_of_none rfl
  | tool n f ih => exact Ends.of_forward rfl ih

theorem Shared.not_slotEnds_replace {h index : Nat} {readable : Bool}
    (staged : t.stages h index readable = true) (reached : t.Reached h index) :
    ¬(t.replace h index h true readable).SlotEnds index := by
  unfold Shared.replace
  rw [if_pos staged]
  change ¬Ends ((t.setCell index h _).table index).forward ((t.setCell index h _).table index).entry
  rw [setCell_forward, setCell_entry]
  exact not_ends_redirect reached

theorem Shared.Sound.slotEnds_iff (sound : t.Sound) {moves : List Move}
    (honest : Along Honest t moves) :
    (∀ before, before <+: moves → ∀ slot, (t.run before).SlotEnds slot) ↔ Along Apart t moves := by
  induction moves generalizing t with
  | nil =>
    refine ⟨fun _ => trivial, fun _ before isBegin slot => ?_⟩
    cases List.prefix_nil.mp isBegin
    exact sound.free slot _
  | cons move rest ih =>
    have onward : (∀ before, before <+: move :: rest → ∀ slot, (t.run before).SlotEnds slot) ↔
        ∀ before, before <+: rest → ∀ slot, ((t.move move).run before).SlotEnds slot := by
      constructor
      · exact fun all before isBegin => all (move :: before) (List.cons_prefix_cons.mpr ⟨rfl, isBegin⟩)
      · intro all before isBegin slot
        cases before with
        | nil => exact sound.free slot _
        | cons first later =>
          obtain ⟨rfl, begins⟩ := List.cons_prefix_cons.mp isBegin
          exact all later begins slot
    have first : (∀ before, before <+: rest → ∀ slot, ((t.move move).run before).SlotEnds slot) → Apart t move := by
      intro all
      cases move with
      | replace h index origOut readable =>
        rintro staged rfl reached
        exact not_slotEnds_replace staged reached (all [] List.nil_prefix index)
      | attach h probed => trivial
      | setImplementationModule h => trivial
      | commit h writes undoes => trivial
      | reclaim h quietSlots answers => trivial
      | uninstall h answers => trivial
      | moduleWrites slot n => trivial
      | toolWrites slot n clean => trivial
    rw [onward]
    constructor
    · intro all
      exact ⟨first all, (ih (sound.move honest.1 (first all)) honest.2).mp all⟩
    · intro apart
      exact (ih (sound.move honest.1 apart.1) honest.2).mpr apart.2

/-- In a run with honest quiet lists, every slot ends in every state that is reached if and
only if no hook stages a slot from which its own thunk is reached. -/
theorem slots_end_iff (codes : Nat → Nat) (moves : List Move) (honest : Along Honest (.init codes) moves) :
    (∀ before, before <+: moves → ∀ slot, ((Shared.init codes).run before).SlotEnds slot) ↔
      Along Apart (.init codes) moves :=
  (Shared.init_sound codes).slotEnds_iff honest

def allOk : Nat → PatchAnswer := fun _ => ⟨true, true, true⟩

/-- A tool that goes past the hook, and the hook that takes the slot back. -/
def healedSlot : List Move :=
  [.attach 0 8, .replace 0 0 true true, .commit 0 (fun _ => true) (fun _ => true), .toolWrites 0 7 (some 1),
    .reclaim 0 [0] allOk]

theorem healedSlot_ends :
    ((Shared.init id).run healedSlot).SlotEnds 0 ∧ ((Shared.init id).run healedSlot).Reached 0 0 := by
  have past : ∀ slot ∈ [0], ¬((Shared.init id).run (healedSlot.take 4)).Reached 0 slot := by
    rintro slot mem ⟨n, reached⟩
    cases List.mem_singleton.mp mem
    match n, reached with
    | 0, reached => cases reached
    | 1, reached => cases reached
    | n + 2, reached => cases reached
  have staged : ¬((Shared.init id).run (healedSlot.take 1)).Reached 0 0 := Shared.not_reached_of_code rfl
  refine ⟨?_, 0, rfl⟩
  exact (slots_end_iff id healedSlot ⟨trivial, trivial, trivial, trivial, past, trivial⟩).mpr
    ⟨trivial, fun _ _ => staged, trivial, trivial, trivial, trivial⟩ healedSlot List.prefix_rfl 0

/-- A tool that chains through the hook, which then lets go and is attached again. -/
def attachedAgain : List Move :=
  [.attach 0 8, .replace 0 0 true true, .commit 0 (fun _ => true) (fun _ => true), .toolWrites 0 7 none,
    .uninstall 0 allOk, .attach 0 8, .replace 0 0 true true]

/-- The thunk is still in the tool's chain, and now forwards to the tool. -/
theorem attachedAgain_loops :
    Along Honest (.init id) attachedAgain ∧ ¬((Shared.init id).run attachedAgain).SlotEnds 0 := by
  refine ⟨⟨trivial, trivial, trivial, trivial, trivial, trivial, trivial, trivial⟩, ?_⟩
  have reached : ((Shared.init id).run (attachedAgain.take 6)).Reached 0 0 := ⟨1, rfl⟩
  have staged : ((Shared.init id).run (attachedAgain.take 6)).stages 0 0 true = true := by decide +kernel
  exact Shared.not_slotEnds_replace staged reached

end EdvrPatch.VTable
