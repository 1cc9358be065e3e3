import EdvrPatch.VTable.CallLoops

/-! Hooks stacked over one table. They are staged and committed in any order; then the
module stores entries of its own and the hooks take slots back; and in the reverse order of
their commits they let go. Whatever happened, a slot then holds what the module stored. -/
namespace EdvrPatch.VTable

/-! ### Undoing patches -/

/-- A slot's entry after a patch is undone: the thunk gives way to what the patch found. -/
def Patch.undo (slot : Nat) (p : Patch) (e : Entry) : Entry :=
  if p.slot = slot ∧ e = .thunk p.replacement then p.original else e

/-- A slot's entry after a stack of patches is undone from its top. -/
def unwind (slot : Nat) (stack : List Patch) (e : Entry) : Entry :=
  stack.foldr (Patch.undo slot) e

variable {slot : Nat}

theorem undo_of_slot {p : Patch} (other : p.slot ≠ slot) (e : Entry) : p.undo slot e = e :=
  if_neg fun same => other same.1

variable {e : Entry}

theorem undo_of_entry {p : Patch} (other : e ≠ .thunk p.replacement) : p.undo slot e = e :=
  if_neg fun same => other same.2

theorem undo_thunk (p : Patch) : p.undo p.slot (.thunk p.replacement) = p.original :=
  if_pos ⟨rfl, rfl⟩

theorem unwind_append (slot : Nat) (front back : List Patch) (e : Entry) :
    unwind slot (front ++ back) e = unwind slot front (unwind slot back e) :=
  List.foldr_append ..

theorem unwind_code (slot : Nat) (stack : List Patch) (n : Nat) :
    unwind slot stack (.code n) = .code n := by
  induction stack with
  | nil => rfl
  | cons p rest ih =>
    change p.undo slot (unwind slot rest (.code n)) = _
    rw [ih]
    exact undo_of_entry nofun

theorem unwind_of_slot {stack : List Patch} (other : ∀ p ∈ stack, p.slot ≠ slot) (e : Entry) :
    unwind slot stack e = e := by
  induction stack with
  | nil => rfl
  | cons p rest ih =>
    change p.undo slot (unwind slot rest e) = _
    rw [ih fun q member => other q (List.mem_cons_of_mem _ member)]
    exact undo_of_slot (other p List.mem_cons_self) e

def Valid (codes : Nat → Nat) (stack : List Patch) (slot : Nat) (e : Entry) : Prop :=
  e = .code (codes slot) ∨ ∃ p ∈ stack, p.slot = slot ∧ e = .thunk p.replacement

variable {codes : Nat → Nat}

theorem Valid.mono {stack stack' : List Patch} (valid : Valid codes stack slot e)
    (more : stack ⊆ stack') : Valid codes stack' slot e := by
  rcases valid with isCode | ⟨p, member, isThunk⟩
  · exact .inl isCode
  · exact .inr ⟨p, more member, isThunk⟩

/-- A stack whose patches found the module's code, or thunks of the patches below. -/
inductive Laid (codes : Nat → Nat) : List Patch → Prop
  | nil : Laid codes []
  | snoc {stack : List Patch} {p : Patch} : Laid codes stack →
      Valid codes stack p.slot p.original → Laid codes (stack ++ [p])

theorem Laid.append {stack patches : List Patch} (laid : Laid codes stack)
    (valid : ∀ p ∈ patches, Valid codes stack p.slot p.original) :
    Laid codes (stack ++ patches) := by
  induction patches generalizing stack with
  | nil => simpa using laid
  | cons p rest ih =>
    rw [show stack ++ p :: rest = (stack ++ [p]) ++ rest by simp]
    exact ih (laid.snoc (valid p List.mem_cons_self)) fun q member =>
      (valid q (List.mem_cons_of_mem _ member)).mono (List.subset_append_left ..)

theorem Laid.unwind {stack : List Patch} (laid : Laid codes stack)
    (valid : Valid codes stack slot e) : unwind slot stack e = .code (codes slot) := by
  induction laid generalizing e with
  | nil =>
    rcases valid with rfl | ⟨p, member, -⟩
    · rfl
    · cases member
  | @snoc stack p laid original ih =>
    rw [unwind_append]
    change VTable.unwind slot stack (p.undo slot e) = _
    apply ih
    rcases valid with rfl | ⟨q, member, here, rfl⟩
    · rw [undo_of_entry (show Entry.code _ ≠ .thunk _ from nofun)]
      exact .inl rfl
    · by_cases mine : p.slot = slot ∧ q.replacement = p.replacement
      · rw [mine.2, ← mine.1, undo_thunk]
        exact original
      · rw [Patch.undo, if_neg fun same => mine ⟨same.1, Entry.thunk.inj same.2⟩]
        rcases List.mem_append.mp member with old | new
        · exact .inr ⟨q, old, here, rfl⟩
        · rw [List.mem_singleton.mp new] at here mine
          exact absurd ⟨here, rfl⟩ mine

/-! ### Letting go -/

namespace Shared

variable {t : Shared} {h : Nat}

theorem writeEntry_entry_eq (t : Shared) (slot other : Nat) (value : Entry) :
    ((t.writeEntry slot value true).table other).entry =
      if slot = other then value else (t.table other).entry := by
  split
  · rename_i same
    rw [← same]
    exact writeEntry_entry t slot value
  · rename_i apart
    rw [writeEntry_of_ne t (Ne.symm apart)]

variable {answers : Nat → PatchAnswer}

theorem restores_entry (ok : ∀ i, (answers i).readable = true ∧ (answers i).writes = true)
    (patches : List Patch) (t : Shared) (i slot : Nat) :
    ((restores answers t i patches).table slot).entry =
      patches.foldl (fun e p => p.undo slot e) (t.table slot).entry := by
  induction patches generalizing t i with
  | nil => rfl
  | cons p rest ih =>
    rw [restores, (ok i).1, (ok i).2, Bool.true_and, List.foldl_cons]
    by_cases mine : (t.table p.slot).entry = .thunk p.replacement
    · rw [if_pos (decide_eq_true mine), ih, writeEntry_entry_eq]
      by_cases here : p.slot = slot
      · subst here
        rw [if_pos rfl, mine, undo_thunk]
      · rw [if_neg here, undo_of_slot here]
    · rw [if_neg (by simpa using mine), ih]
      by_cases here : p.slot = slot
      · subst here
        rw [undo_of_entry mine]
      · rw [undo_of_slot here]

theorem uninstall_entry (ok : ∀ i, (answers i).readable = true ∧ (answers i).writes = true)
    (attached : (t.hooks h).attached = true) (committed : (t.hooks h).committed = true)
    (slot : Nat) :
    ((t.uninstall h answers).table slot).entry =
      unwind slot (t.hooks h).patches (t.table slot).entry := by
  unfold uninstall
  dsimp only
  rw [if_neg (by simp [attached]), if_pos committed]
  change ((restores answers t 0 (t.hooks h).patches.reverse).table slot).entry = _
  rw [restores_entry ok, List.foldl_reverse]
  rfl

theorem uninstall_hooks {other : Nat} (apart : other ≠ h) :
    (t.uninstall h answers).hooks other = t.hooks other := by
  unfold uninstall
  dsimp only
  split
  · rfl
  · split
    · change Function.update (restores answers t 0 _).hooks h _ other = _
      rw [Function.update_of_ne apart, restores_hooks]
    · exact Function.update_of_ne apart ..

def stack (t : Shared) (order : List Nat) : List Patch :=
  order.flatMap fun h => (t.hooks h).patches

def uninstallAll (t : Shared) (answers : Nat → Nat → PatchAnswer) (order : List Nat) : Shared :=
  order.foldr (fun h t => t.uninstall h (answers h)) t

theorem uninstallAll_entry {answers : Nat → Nat → PatchAnswer}
    (ok : ∀ h i, (answers h i).readable = true ∧ (answers h i).writes = true) {order : List Nat}
    (once : order.Nodup) (t : Shared)
    (held : ∀ h ∈ order, (t.hooks h).attached = true ∧ (t.hooks h).committed = true) (slot : Nat) :
    ((t.uninstallAll answers order).table slot).entry =
      unwind slot (t.stack order) (t.table slot).entry := by
  induction order using List.reverseRecOn generalizing t with
  | nil => rfl
  | append_singleton order h ih =>
    obtain ⟨before, -, apart⟩ := List.nodup_append.mp once
    have others : ∀ h' ∈ order, (t.uninstall h (answers h)).hooks h' = t.hooks h' :=
      fun h' member => uninstall_hooks (apart h' member h (List.mem_singleton_self h))
    have top := held h (List.mem_append_right _ (List.mem_singleton_self h))
    have same : (t.uninstall h (answers h)).stack order = t.stack order :=
      List.flatMap_congr fun h' member => by rw [others h' member]
    unfold uninstallAll
    rw [List.foldr_append]
    change (((t.uninstall h (answers h)).uninstallAll answers order).table slot).entry = _
    rw [ih before _ fun h' member => by
      rw [others h' member]
      exact held h' (List.mem_append_left _ member)]
    rw [same, uninstall_entry (ok h) top.1 top.2, ← unwind_append]
    unfold stack
    rw [List.flatMap_append]
    simp

/-! ### Committing -/

theorem installs_all (patches : List Patch) (t : Shared) (k slot : Nat) :
    (installs (fun _ => true) t k patches).2 = k + patches.length ∧
      (((installs (fun _ => true) t k patches).1.table slot).entry = (t.table slot).entry ∨
        ∃ p ∈ patches, p.slot = slot ∧
          ((installs (fun _ => true) t k patches).1.table slot).entry = .thunk p.replacement) := by
  induction patches generalizing t k with
  | nil => exact ⟨rfl, .inl rfl⟩
  | cons p rest ih =>
    obtain ⟨count, entry⟩ := ih (t.writeEntry p.slot (.thunk p.replacement) true) (k + 1)
    rw [installs, if_pos rfl]
    refine ⟨by rw [count, List.length_cons]; omega, ?_⟩
    rcases entry with same | ⟨q, member, here, thunk⟩
    · rw [same, writeEntry_entry_eq]
      split
      · rename_i here
        exact .inr ⟨p, List.mem_cons_self, here, rfl⟩
      · exact .inl rfl
    · exact .inr ⟨q, List.mem_cons_of_mem _ member, here, thunk⟩

theorem installs_registry (patches : List Patch) (t : Shared) (k : Nat) :
    (installs (fun _ => true) t k patches).1.slotOwners = t.slotOwners ∧
      (installs (fun _ => true) t k patches).1.slotOwnersPoisoned = t.slotOwnersPoisoned := by
  induction patches generalizing t k with
  | nil => exact ⟨rfl, rfl⟩
  | cons p rest ih =>
    rw [installs, if_pos rfl]
    exact ih _ (k + 1)

/-- The registry has the slots of the patches that are in the table, while nothing was
left out of it. -/
def Registered (t : Shared) (patches : List Patch) : Prop :=
  t.slotOwnersPoisoned = false → t.slotOwners.map (·.slot) = patches.map (·.slot)

theorem registers_registered {old : List Patch} (patches : List Patch) (t : Shared)
    (registered : t.Registered old) : (registers h t patches).Registered (old ++ patches) := by
  induction patches generalizing t old with
  | nil => simpa [registers] using registered
  | cons p rest ih =>
    unfold registers
    split
    · exact nofun
    · rw [show old ++ p :: rest = (old ++ [p]) ++ rest by simp]
      refine ih _ fun clean => ?_
      rw [List.map_append, List.map_append, registered clean]
      rfl

theorem registers_table (patches : List Patch) (t : Shared) :
    (registers h t patches).table = t.table := by
  induction patches generalizing t with
  | nil => rfl
  | cons p rest ih =>
    unfold registers
    split
    · rfl
    · rw [ih]

end Shared

/-- What a hook may do until it is committed. Every entry of a commit is written. -/
inductive Build
  | attach (h probed : Nat)
  | setImplementationModule (h : Nat)
  | replace (h index thunk : Nat) (origOut readable : Bool)
  | commit (h : Nat)

structure Stacked where
  shared : Shared
  order : List Nat := []

namespace Stacked

def commits (t : Shared) (h : Nat) : Bool :=
  (t.hooks h).attached && !(t.hooks h).committed && !(t.hooks h).patches.isEmpty

def build (s : Stacked) : Build → Stacked
  | .attach h probed => { s with shared := s.shared.attach h probed }
  | .setImplementationModule h => { s with shared := s.shared.setImplementationModule h }
  | .replace h index thunk origOut readable =>
    { s with shared := s.shared.replace h index thunk origOut readable }
  | .commit h =>
    { shared := s.shared.commit h (fun _ => true) fun _ => true
      order := if commits s.shared h then s.order ++ [h] else s.order }

structure Built (codes : Nat → Nat) (s : Stacked) : Prop where
  once : s.order.Nodup
  listed : ∀ h, h ∈ s.order ↔ (s.shared.hooks h).committed = true
  attached : ∀ h, (s.shared.hooks h).committed = true → (s.shared.hooks h).attached = true
  laid : Laid codes (s.shared.stack s.order)
  entries : ∀ slot, Valid codes (s.shared.stack s.order) slot (s.shared.table slot).entry
  staged : ∀ h, (s.shared.hooks h).committed = false → ∀ p ∈ (s.shared.hooks h).patches,
    Valid codes (s.shared.stack s.order) p.slot p.original
  registered : s.shared.Registered (s.shared.stack s.order)

variable {codes : Nat → Nat} {s : Stacked} {h : Nat}

variable {t : Shared}

theorem commits_iff : commits t h = true ↔ (t.hooks h).attached = true ∧
    (t.hooks h).committed = false ∧ (t.hooks h).patches ≠ [] := by
  unfold commits
  simp [and_assoc]

theorem Built.hook (built : s.Built codes) {hook : Hook}
    (entries : ∀ slot, (t.table slot).entry = (s.shared.table slot).entry)
    (owners : t.slotOwners = s.shared.slotOwners)
    (poisoned : t.slotOwnersPoisoned = s.shared.slotOwnersPoisoned)
    (hooks : t.hooks = Function.update s.shared.hooks h hook)
    (committed : hook.committed = (s.shared.hooks h).committed)
    (attached : hook.committed = true → hook.attached = true)
    (patches : hook.committed = true → hook.patches = (s.shared.hooks h).patches)
    (staged : hook.committed = false → ∀ p ∈ hook.patches, Valid codes (s.shared.stack s.order) p.slot p.original) :
    Built codes { s with shared := t } := by
  have one : t.hooks h = hook := by rw [hooks, Function.update_self]
  have other (h' : Nat) (apart : h' ≠ h) : t.hooks h' = s.shared.hooks h' := by
    rw [hooks, Function.update_of_ne apart]
  have flag (h' : Nat) : (t.hooks h').committed = (s.shared.hooks h').committed := by
    by_cases same : h' = h
    · rw [same, one, committed]
    · rw [other h' same]
  have stack : t.stack s.order = s.shared.stack s.order := by
    refine List.flatMap_congr fun h' member => ?_
    by_cases same : h' = h
    · rw [same] at member ⊢
      rw [one, patches (committed.trans ((built.listed h).mp member))]
    · rw [other h' same]
  refine ⟨built.once, fun h' => by rw [flag]; exact built.listed h', fun h' on => ?_, ?_, ?_, ?_, ?_⟩
  · by_cases same : h' = h
    · rw [same, one] at on ⊢
      exact attached on
    · rw [flag] at on
      rw [other h' same]
      exact built.attached h' on
  · change Laid codes (t.stack s.order)
    rw [stack]
    exact built.laid
  · intro slot
    rw [stack, entries]
    exact built.entries slot
  · intro h' off p member
    rw [stack]
    by_cases same : h' = h
    · rw [same, one] at off member
      exact staged off p member
    · rw [flag] at off
      rw [other h' same] at member
      exact built.staged h' off p member
  · intro clean
    rw [stack, owners]
    exact built.registered (poisoned ▸ clean)

theorem Built.attach (built : s.Built codes) (probed : Nat) :
    Built codes (s.build (.attach h probed)) := by
  unfold Stacked.build Shared.attach
  dsimp only
  split
  · exact built
  · rename_i fresh
    have off : (s.shared.hooks h).committed = false := by
      by_contra on
      have attached := built.attached h (by simpa using on)
      simp [attached] at fresh
    exact built.hook (fun _ => rfl) rfl rfl rfl rfl (fun _ => rfl)
      (fun on => absurd (off.symm.trans on) Bool.false_ne_true) nofun

theorem Built.setImplementationModule (built : s.Built codes) :
    Built codes (s.build (.setImplementationModule h)) :=
  built.hook (fun _ => rfl) rfl rfl rfl rfl (built.attached h) (fun _ => rfl) (built.staged h)

theorem Built.replace (built : s.Built codes) (index thunk : Nat) (origOut readable : Bool) :
    Built codes (s.build (.replace h index thunk origOut readable)) := by
  unfold Stacked.build Shared.replace
  dsimp only
  split
  · rename_i stages
    unfold Shared.stages at stages
    simp only [Bool.and_eq_true, Bool.not_eq_true'] at stages
    obtain ⟨⟨⟨attached, off⟩, -⟩, -⟩ := stages
    have staged : ∀ p ∈ (s.shared.hooks h).patches ++
        [{ slot := index, replacement := thunk, original := (s.shared.table index).entry
           origOut := origOut }], Valid codes (s.shared.stack s.order) p.slot p.original := by
      intro p member
      rcases List.mem_append.mp member with old | new
      · exact built.staged h off p old
      · rw [List.mem_singleton.mp new]
        exact built.entries index
    cases origOut with
    | true =>
      exact built.hook (fun slot => Shared.setCell_entry ..) rfl rfl rfl rfl (fun _ => attached)
        (fun on => absurd (off.symm.trans on) Bool.false_ne_true) fun _ => staged
    | false =>
      exact built.hook (fun _ => rfl) rfl rfl rfl rfl (fun _ => attached)
        (fun on => absurd (off.symm.trans on) Bool.false_ne_true) fun _ => staged
  · exact built

theorem commit_refused {writes undoes : Nat → Bool} (refused : commits t h ≠ true) :
    t.commit h writes undoes = t := by
  unfold Shared.commit
  rw [if_pos]
  unfold commits at refused
  generalize (t.hooks h).attached = attached, (t.hooks h).committed = committed,
    (t.hooks h).patches.isEmpty = empty at refused ⊢
  revert attached committed empty
  decide

theorem commit_done {undoes : Nat → Bool} (done : commits t h = true) :
    t.commit h (fun _ => true) undoes =
      Shared.registers h ((Shared.installs (fun _ => true) t 0 (t.hooks h).patches).1.setHook h
        { t.hooks h with committed := true }) (t.hooks h).patches := by
  obtain ⟨attached, fresh, some_⟩ := commits_iff.mp done
  have count := (Shared.installs_all (t.hooks h).patches t 0 0).1
  unfold Shared.commit
  dsimp only
  rw [if_neg (by simp [attached, fresh, some_])]
  generalize Shared.installs (fun _ => true) t 0 (t.hooks h).patches = r at count ⊢
  obtain ⟨t', n⟩ := r
  dsimp only at count ⊢
  rw [if_neg (by omega)]

theorem Built.commit (built : s.Built codes) : Built codes (s.build (.commit h)) := by
  unfold Stacked.build
  dsimp only
  by_cases done : commits s.shared h = true
  · rw [if_pos done, commit_done done]
    obtain ⟨-, fresh, -⟩ := commits_iff.mp done
    have outside : h ∉ s.order := fun member => absurd (fresh.symm.trans ((built.listed h).mp member))
      Bool.false_ne_true
    generalize made : Shared.registers h ((Shared.installs (fun _ => true) s.shared 0
      (s.shared.hooks h).patches).1.setHook h { s.shared.hooks h with committed := true })
      (s.shared.hooks h).patches = t
    have hooks : t.hooks = Function.update s.shared.hooks h
        { s.shared.hooks h with committed := true } := by
      rw [← made, Shared.registers_hooks]
      unfold Shared.setHook
      rw [Shared.installs_hooks]
    have one : t.hooks h = { s.shared.hooks h with committed := true } := by
      rw [hooks, Function.update_self]
    have other (h' : Nat) (apart : h' ≠ h) : t.hooks h' = s.shared.hooks h' := by
      rw [hooks, Function.update_of_ne apart]
    have stack : t.stack (s.order ++ [h]) = s.shared.stack s.order ++ (s.shared.hooks h).patches := by
      unfold Shared.stack
      rw [List.flatMap_append, List.flatMap_singleton, one]
      congr 1
      exact List.flatMap_congr fun h' member => by
        rw [other h' fun same => outside (same ▸ member)]
    have front : s.shared.stack s.order ⊆ t.stack (s.order ++ [h]) := by
      rw [stack]
      exact List.subset_append_left ..
    refine ⟨?_, fun h' => ?_, fun h' on => ?_, ?_, fun slot => ?_, fun h' off p member => ?_, ?_⟩
    · refine List.nodup_append.mpr ⟨built.once, by simp, fun h' member h'' last => ?_⟩
      rw [List.mem_singleton.mp last]
      exact fun same => outside (same ▸ member)
    · by_cases same : h' = h
      · simp [same, one]
      · simp [same, other h' same, built.listed h']
    · by_cases same : h' = h
      · rw [same, one]
        exact (commits_iff.mp done).1
      · dsimp only at on
        rw [other h' same] at on ⊢
        exact built.attached h' on
    · dsimp only
      rw [stack]
      exact built.laid.append (built.staged h fresh)
    · have written := (Shared.installs_all (s.shared.hooks h).patches s.shared 0 slot).2
      have same : t.table = (Shared.installs (fun _ => true) s.shared 0
          (s.shared.hooks h).patches).1.table := by
        rw [← made, Shared.registers_table]
        rfl
      rw [same]
      rcases written with kept | ⟨p, member, here, thunk⟩
      · rw [kept]
        exact (built.entries slot).mono front
      · refine .inr ⟨p, ?_, here, thunk⟩
        rw [stack]
        exact List.mem_append_right _ member
    · dsimp only at off member ⊢
      have apart : h' ≠ h := by
        rintro rfl
        rw [one] at off
        cases off
      rw [other h' apart] at off member
      exact (built.staged h' off p member).mono front
    · dsimp only
      rw [stack, ← made]
      refine Shared.registers_registered _ _ ?_
      have kept := Shared.installs_registry (s.shared.hooks h).patches s.shared 0
      intro clean
      exact (congrArg _ kept.1).trans (built.registered (kept.2.symm.trans clean))
  · rw [if_neg done, commit_refused done]
    exact built

theorem Built.build (built : s.Built codes) (move : Build) : Built codes (s.build move) := by
  cases move with
  | attach h probed => exact built.attach probed
  | setImplementationModule h => exact built.setImplementationModule
  | replace h index thunk origOut readable => exact built.replace index thunk origOut readable
  | commit h => exact built.commit

theorem built_init (codes : Nat → Nat) : Built codes { shared := .init codes } where
  once := List.nodup_nil
  listed h := by simp [Shared.init]
  attached h := nofun
  laid := .nil
  entries slot := .inl rfl
  staged h _ := nofun
  registered _ := rfl

theorem built_run (codes : Nat → Nat) (moves : List Build) :
    Built codes (moves.foldl Stacked.build { shared := .init codes }) :=
  List.foldlRecOn (motive := Built codes) moves Stacked.build (built_init codes)
    fun _ built move _ => built.build move

end Stacked

/-! ### Taking slots back -/

/-- What may happen after the commits: the module stores an entry, or a hook looks after
its slots. -/
inductive Shift
  | moduleWrites (slot n : Nat)
  | setImplementationModule (h : Nat)
  | reclaim (h : Nat) (quietSlots : List Nat) (answers : Nat → PatchAnswer)

def stores (codes : Nat → Nat) : Shift → Nat → Nat
  | .moduleWrites slot n => Function.update codes slot n
  | _ => codes

namespace Shared

variable {t : Shared} {h : Nat}

def shift (t : Shared) : Shift → Shared
  | .moduleWrites slot n => t.writeEntry slot (.code n) true
  | .setImplementationModule h => t.setImplementationModule h
  | .reclaim h quietSlots answers => t.reclaim h quietSlots answers

structure Reclaims (t : Shared) (p : Patch) (t' : Shared) (p' : Patch) : Prop where
  slot : p'.slot = p.slot
  replacement : p'.replacement = p.replacement
  owners : t'.slotOwners = t.slotOwners
  poisoned : t'.slotOwnersPoisoned = t.slotOwnersPoisoned
  others : ∀ slot, slot ≠ p.slot → (t'.table slot).entry = (t.table slot).entry
  done : (t'.table p.slot).entry = (t.table p.slot).entry ∧ p'.original = p.original ∨
    (t.slotOwners.filter fun o => o.slot = p.slot).length ≤ 1 ∧
      (t.table p.slot).entry ≠ .thunk p.replacement ∧ p'.original = (t.table p.slot).entry ∧
      ((t'.table p.slot).entry = .thunk p.replacement ∨
        (t'.table p.slot).entry = (t.table p.slot).entry)

theorem Reclaims.refl {p p' : Patch} (slot : p'.slot = p.slot)
    (replacement : p'.replacement = p.replacement) (original : p'.original = p.original) :
    Reclaims t p t p' :=
  ⟨slot, replacement, rfl, rfl, fun _ _ => rfl, .inl ⟨rfl, original⟩⟩

theorem reclaimsPatch_spec (quietSlots : List Nat) (answer : PatchAnswer) (p : Patch) :
    Reclaims t p (t.reclaimsPatch h quietSlots answer p).1
      (t.reclaimsPatch h quietSlots answer p).2 := by
  have classified : ∀ now, (t.classifies h p now).slot = p.slot ∧
      (t.classifies h p now).replacement = p.replacement ∧
      (t.classifies h p now).original = p.original := by
    intro now
    unfold classifies
    split <;> exact ⟨rfl, rfl, rfl⟩
  unfold reclaimsPatch
  dsimp only
  split
  · exact .refl rfl rfl rfl
  rename_i foreign
  split
  · exact .refl rfl rfl rfl
  split
  · exact .refl rfl rfl rfl
  obtain ⟨slot, replacement, original⟩ := classified (t.table p.slot).entry
  generalize t.classifies h p (t.table p.slot).entry = q at slot replacement original ⊢
  split
  · exact .refl slot replacement original
  rename_i alone
  split
  · exact .refl slot replacement original
  split
  · exact .refl slot replacement original
  split
  · exact .refl slot replacement original
  have top : (t.table p.slot).entry ≠ .thunk p.replacement := by
    intro same
    simp [same] at foreign
  unfold adopts
  dsimp only
  rw [slot, replacement]
  have cell := setCell_entry t p.slot p.replacement (t.table p.slot).entry
  refine ⟨rfl, rfl, ?_, ?_, fun other apart => ?_, .inr ⟨by omega, top, rfl, ?_⟩⟩
  · unfold writeEntry
    split <;> rfl
  · unfold writeEntry
    split <;> rfl
  · rw [writeEntry_of_ne _ apart, setCell_of_ne t apart]
  · cases answer.writes with
    | true => exact .inl (writeEntry_entry ..)
    | false => exact .inr (cell p.slot)

theorem alone_of_registered {owners : List SlotOwner} {front back : List Patch} {p : Patch}
    (same : owners.map (·.slot) = (front ++ p :: back).map (·.slot))
    (once : (owners.filter fun o => o.slot = p.slot).length ≤ 1) :
    ∀ q ∈ front ++ back, q.slot ≠ p.slot := by
  have count : (owners.filter fun o => o.slot = p.slot).length =
      ((front ++ p :: back).filter fun q => q.slot = p.slot).length := by
    have mapped := congrArg (fun slots => (slots.filter fun slot => slot = p.slot).length) same
    simpa [List.filter_map, Function.comp_def] using mapped
  rw [List.filter_append, List.filter_cons_of_pos (by simp), List.length_append,
    List.length_cons] at count
  intro q member here
  rcases List.mem_append.mp member with inside | inside
  · have some_ : 0 < (front.filter fun q => q.slot = p.slot).length :=
      List.length_pos_of_mem (List.mem_filter.mpr ⟨inside, by simpa using here⟩)
    omega
  · have some_ : 0 < (back.filter fun q => q.slot = p.slot).length :=
      List.length_pos_of_mem (List.mem_filter.mpr ⟨inside, by simpa using here⟩)
    omega

theorem Reclaims.ends {p p' : Patch} {t' : Shared} (reclaims : Reclaims t p t' p')
    (front back : List Patch)
    (same : t.slotOwners.map (·.slot) = (front ++ p :: back).map (·.slot)) (slot : Nat) :
    unwind slot (front ++ p' :: back) (t'.table slot).entry =
      unwind slot (front ++ p :: back) (t.table slot).entry := by
  rw [unwind_append, unwind_append]
  congr 1
  change p'.undo slot (unwind slot back (t'.table slot).entry) =
    p.undo slot (unwind slot back (t.table slot).entry)
  by_cases here : slot = p.slot
  · subst here
    rcases reclaims.done with ⟨entry, original⟩ | ⟨once, top, original, taken⟩
    · rw [entry]
      unfold Patch.undo
      rw [reclaims.slot, reclaims.replacement, original]
    · have alone : ∀ q ∈ back, q.slot ≠ p.slot := fun q member =>
        alone_of_registered same once q (List.mem_append_right _ member)
      rw [unwind_of_slot alone, unwind_of_slot alone, undo_of_entry top]
      rcases taken with entry | entry
      · rw [entry, ← original, ← reclaims.slot, ← reclaims.replacement, undo_thunk]
      · rw [entry, undo_of_entry (by rw [reclaims.replacement]; exact top)]
  · rw [reclaims.others slot here, undo_of_slot (by rw [reclaims.slot]; exact Ne.symm here),
      undo_of_slot (Ne.symm here)]

theorem reclaimsAll_unwind {quietSlots : List Nat} {answers : Nat → PatchAnswer}
    (patches : List Patch) (t : Shared) (i : Nat) (front back : List Patch)
    (same : t.slotOwners.map (·.slot) = (front ++ patches ++ back).map (·.slot)) :
    (reclaimsAll h quietSlots answers t i patches).1.slotOwners = t.slotOwners ∧
      (reclaimsAll h quietSlots answers t i patches).2.map (·.slot) = patches.map (·.slot) ∧
      ∀ slot, unwind slot (front ++ (reclaimsAll h quietSlots answers t i patches).2 ++ back)
          ((reclaimsAll h quietSlots answers t i patches).1.table slot).entry =
        unwind slot (front ++ patches ++ back) (t.table slot).entry := by
  induction patches generalizing t i front with
  | nil => exact ⟨rfl, rfl, fun _ => rfl⟩
  | cons p rest ih =>
    have first := @reclaimsPatch_spec t h quietSlots (answers i) p
    unfold reclaimsAll
    generalize t.reclaimsPatch h quietSlots (answers i) p = r at first ⊢
    obtain ⟨t', p'⟩ := r
    dsimp only at first ⊢
    have same' : t'.slotOwners.map (·.slot) = ((front ++ [p']) ++ rest ++ back).map (·.slot) := by
      rw [first.owners, same]
      simp [first.slot]
    obtain ⟨owners, slots, ends⟩ := ih t' (i + 1) (front ++ [p']) same'
    refine ⟨owners.trans first.owners, ?_, fun slot => ?_⟩
    · rw [List.map_cons, List.map_cons, slots, first.slot]
    · have later := ends slot
      have now := first.ends front (rest ++ back) (by simpa using same) slot
      simp only [List.append_assoc, List.cons_append, List.nil_append] at later ⊢
      exact later.trans now

end Shared

/-- After the commits: every slot ends at the entry that the module stored last. -/
structure Kept (codes : Nat → Nat) (t : Shared) (order : List Nat) : Prop where
  once : order.Nodup
  listed : ∀ h, h ∈ order ↔ (t.hooks h).committed = true
  attached : ∀ h, (t.hooks h).committed = true → (t.hooks h).attached = true
  ends : ∀ slot, unwind slot (t.stack order) (t.table slot).entry = .code (codes slot)
  registered : t.Registered (t.stack order)

namespace Kept

variable {codes : Nat → Nat} {t : Shared} {order : List Nat} {h : Nat}

theorem moduleWrites (kept : Kept codes t order) (slot n : Nat) :
    Kept (stores codes (.moduleWrites slot n)) (t.writeEntry slot (.code n) true) order := by
  have hooks := t.writeEntry_hooks slot (.code n) true
  have stack : (t.writeEntry slot (.code n) true).stack order = t.stack order := by
    unfold Shared.stack
    rw [hooks]
  refine ⟨kept.once, by rw [hooks]; exact kept.listed, by rw [hooks]; exact kept.attached,
    fun other => ?_, ?_⟩
  · rw [stack, Shared.writeEntry_entry_eq]
    unfold stores
    by_cases same : slot = other
    · subst same
      rw [if_pos rfl, unwind_code]
      dsimp only
      rw [Function.update_self]
    · rw [if_neg same]
      dsimp only
      rw [Function.update_of_ne (Ne.symm same)]
      exact kept.ends other
  · rw [stack]
    exact kept.registered

theorem setImplementationModule (kept : Kept codes t order) :
    Kept codes (t.setImplementationModule h) order := by
  have fields (h' : Nat) : ((t.setImplementationModule h).hooks h').committed =
      (t.hooks h').committed ∧ ((t.setImplementationModule h).hooks h').attached =
      (t.hooks h').attached ∧ ((t.setImplementationModule h).hooks h').patches =
      (t.hooks h').patches := by
    unfold Shared.setImplementationModule Shared.setHook
    dsimp only
    by_cases same : h' = h
    · subst same
      rw [Function.update_self]
      exact ⟨rfl, rfl, rfl⟩
    · rw [Function.update_of_ne same]
      exact ⟨rfl, rfl, rfl⟩
  have stack : (t.setImplementationModule h).stack order = t.stack order :=
    List.flatMap_congr fun h' _ => (fields h').2.2
  refine ⟨kept.once, fun h' => by rw [(fields h').1]; exact kept.listed h', fun h' on => ?_, ?_, ?_⟩
  · rw [(fields h').1] at on
    rw [(fields h').2.1]
    exact kept.attached h' on
  · rw [stack]
    exact kept.ends
  · rw [stack]
    exact kept.registered

theorem reclaim (kept : Kept codes t order) (quietSlots : List Nat)
    (answers : Nat → PatchAnswer) : Kept codes (t.reclaim h quietSlots answers) order := by
  unfold Shared.reclaim
  split
  · exact kept
  rename_i looks
  have on : (t.hooks h).committed = true := by
    by_contra off
    simp [off] at looks
  have clean : t.slotOwnersPoisoned = false := by
    by_contra full
    simp [full] at looks
  obtain ⟨front, back, split_⟩ := List.append_of_mem ((kept.listed h).mpr on)
  have stack (u : Shared) : u.stack order = u.stack front ++ (u.hooks h).patches ++ u.stack back := by
    unfold Shared.stack
    rw [split_]
    simp
  have apart : h ∉ front ∧ h ∉ back := by
    have once := kept.once
    rw [split_] at once
    obtain ⟨-, behind, between⟩ := List.nodup_append.mp once
    exact ⟨fun member => between h member h List.mem_cons_self rfl,
      (List.nodup_cons.mp behind).1⟩
  obtain ⟨owners, slots, ends⟩ := @Shared.reclaimsAll_unwind h quietSlots answers
    (t.hooks h).patches t 0 (t.stack front) (t.stack back)
    ((kept.registered clean).trans (by rw [stack t]))
  have hooks := @Shared.reclaimsAll_hooks h quietSlots answers (t.hooks h).patches t 0
  generalize Shared.reclaimsAll h quietSlots answers t 0 (t.hooks h).patches = r
    at owners slots ends hooks ⊢
  obtain ⟨t', patches⟩ := r
  have one : (t'.setHook h { t'.hooks h with patches := patches }).hooks h =
      { t.hooks h with patches := patches } := by
    rw [← hooks]
    exact Function.update_self ..
  have other (h' : Nat) (apart : h' ≠ h) :
      (t'.setHook h { t'.hooks h with patches := patches }).hooks h' = t.hooks h' := by
    rw [← hooks]
    exact Function.update_of_ne apart ..
  have part {hs : List Nat} (outside : h ∉ hs) :
      (t'.setHook h { t'.hooks h with patches := patches }).stack hs = t.stack hs :=
    List.flatMap_congr fun h' member => by rw [other h' fun same => outside (same ▸ member)]
  have stacked : (t'.setHook h { t'.hooks h with patches := patches }).stack order =
      t.stack front ++ patches ++ t.stack back := by
    rw [stack, part apart.1, part apart.2, one]
  refine ⟨kept.once, fun h' => ?_, fun h' on' => ?_, fun slot => ?_, fun _ => ?_⟩
  · by_cases same : h' = h
    · rw [same, one]
      exact kept.listed h
    · rw [other h' same]
      exact kept.listed h'
  · by_cases same : h' = h
    · rw [same, one]
      exact kept.attached h on
    · rw [other h' same] at on' ⊢
      exact kept.attached h' on'
  · rw [stacked]
    refine (ends slot).trans ?_
    rw [← stack t]
    exact kept.ends slot
  · rw [stacked]
    change t'.slotOwners.map _ = _
    rw [owners, kept.registered clean, stack t]
    simp [slots]

theorem shift (kept : Kept codes t order) (move : Shift) :
    Kept (stores codes move) (t.shift move) order := by
  cases move with
  | moduleWrites slot n => exact kept.moduleWrites slot n
  | setImplementationModule h => exact kept.setImplementationModule
  | reclaim h quietSlots answers => exact kept.reclaim quietSlots answers

theorem shifts (kept : Kept codes t order) (moves : List Shift) :
    Kept (moves.foldl stores codes) (moves.foldl Shared.shift t) order := by
  induction moves generalizing codes t with
  | nil => exact kept
  | cons move rest ih => exact ih (kept.shift move)

end Kept

/-! ### Rolling back -/

namespace Shared

theorem installs_stops {writes : Nat → Bool} (patches : List Patch) (t : Shared) (j k : Nat)
    (short : k < patches.length) (wrote : ∀ i, i < k → writes (j + i) = true)
    (failed : writes (j + k) = false) :
    (installs writes t j patches).2 = j + k ∧ ∀ slot,
      (∀ p ∈ patches.take k, p.slot ≠ slot) →
        ((installs writes t j patches).1.table slot).entry = (t.table slot).entry := by
  induction patches generalizing t j k with
  | nil => cases short
  | cons p rest ih =>
    cases k with
    | zero =>
      rw [installs, if_neg (by simpa using failed)]
      exact ⟨rfl, fun _ _ => rfl⟩
    | succ k =>
      rw [installs, if_pos (by simpa using wrote 0 (Nat.succ_pos k))]
      obtain ⟨count, others⟩ := ih (t.writeEntry p.slot (.thunk p.replacement) true) (j + 1) k
        (by simpa using short) (fun i low => by
          rw [show j + 1 + i = j + (i + 1) by omega]
          exact wrote (i + 1) (by omega))
        (by rw [show j + 1 + k = j + (k + 1) by omega]; exact failed)
      refine ⟨by omega, fun slot apart => ?_⟩
      rw [List.take_succ_cons] at apart
      rw [others slot fun q member => apart q (List.mem_cons_of_mem _ member),
        writeEntry_entry_eq, if_neg (apart p List.mem_cons_self)]

theorem rollsBack_entry {undoes : Nat → Bool} (patches : List Patch) (t : Shared) (j : Nat)
    (undone : ∀ i, i < patches.length → undoes (j + i) = true) (slot : Nat) :
    ((rollsBack undoes t j patches).table slot).entry = (t.table slot).entry ∧
        (∀ p ∈ patches, p.slot ≠ slot) ∨
      ∃ p ∈ patches, p.slot = slot ∧
        ((rollsBack undoes t j patches).table slot).entry = p.original := by
  induction patches generalizing t j with
  | nil => exact .inl ⟨rfl, nofun⟩
  | cons p rest ih =>
    rw [rollsBack, show undoes j = true from undone 0 (by simp)]
    rcases ih (t.writeEntry p.slot p.original true) (j + 1) (fun i low => by
      rw [show j + 1 + i = j + (i + 1) by omega]
      exact undone (i + 1) (by simpa using low)) with ⟨same, apart⟩ | ⟨q, member, here, entry⟩
    · rw [same, writeEntry_entry_eq]
      by_cases here : p.slot = slot
      · exact .inr ⟨p, List.mem_cons_self, here, by rw [if_pos here]⟩
      · exact .inl ⟨by rw [if_neg here], List.forall_mem_cons.mpr ⟨here, apart⟩⟩
    · exact .inr ⟨q, List.mem_cons_of_mem _ member, here, entry⟩

/-- A commit that fails part way, when what went in is put back: the hook has no patches,
and a slot has the entry that it had, or that it was staged with. -/
theorem commit_rolls_back {t : Shared} {h k : Nat} {writes undoes : Nat → Bool}
    (staged : Stacked.commits t h = true) (short : k < (t.hooks h).patches.length)
    (wrote : ∀ i, i < k → writes i = true) (failed : writes k = false)
    (undone : ∀ i, i < k → undoes i = true) :
    ((t.commit h writes undoes).hooks h).patches = [] ∧
      ((t.commit h writes undoes).hooks h).committed = false ∧
      ∀ slot, ((t.commit h writes undoes).table slot).entry = (t.table slot).entry ∨
        ∃ p ∈ (t.hooks h).patches, p.slot = slot ∧
          ((t.commit h writes undoes).table slot).entry = p.original := by
  obtain ⟨attached, fresh, some_⟩ := Stacked.commits_iff.mp staged
  obtain ⟨count, others⟩ := @installs_stops writes (t.hooks h).patches t 0 k short
    (by simpa using wrote) (by simpa using failed)
  unfold commit
  dsimp only
  rw [if_neg (by simp [attached, fresh, some_])]
  generalize installs writes t 0 (t.hooks h).patches = r at count others ⊢
  obtain ⟨t', n⟩ := r
  dsimp only at count others ⊢
  rw [Nat.zero_add] at count
  subst count
  rw [if_pos short]
  have back := @rollsBack_entry undoes ((t.hooks h).patches.take n) t' 0 (fun i low => by
    rw [Nat.zero_add]
    exact undone i (by simp at low; omega))
  have hook : ((rollsBack undoes t' 0 ((t.hooks h).patches.take n)).setHook h
      { t.hooks h with patches := [] }).hooks h = { t.hooks h with patches := [] } :=
    Function.update_self ..
  rw [hook]
  refine ⟨rfl, fresh, fun slot => ?_⟩
  rcases back slot with ⟨same, apart⟩ | ⟨p, member, here, entry⟩
  · exact .inl (same.trans (others slot apart))
  · exact .inr ⟨p, List.mem_of_mem_take member, here, entry⟩

end Shared

/-- Hooks that let go in the reverse order of their commits leave in every slot the entry
that the module stored last; and a commit that fails part way, and puts back what went in,
leaves the hook without patches, and every slot that was not changed since it was staged
with the entry that it held. -/
theorem stacked_hooks_unwind (codes : Nat → Nat) (builds : List Build) (shifts : List Shift)
    (answers : Nat → Nat → PatchAnswer)
    (ok : ∀ h i, (answers h i).readable = true ∧ (answers h i).writes = true) :
    let stacked := builds.foldl Stacked.build { shared := .init codes }
    (∀ slot, (((shifts.foldl Shared.shift stacked.shared).uninstallAll answers
        stacked.order).table slot).entry = .code (shifts.foldl stores codes slot)) ∧
    ∀ (t : Shared) (h k : Nat) (writes undoes : Nat → Bool), Stacked.commits t h = true →
      k < (t.hooks h).patches.length → (∀ i, i < k → writes i = true) → writes k = false →
      (∀ i, i < k → undoes i = true) →
      ((t.commit h writes undoes).hooks h).patches = [] ∧
        ((t.commit h writes undoes).hooks h).committed = false ∧
        (∀ slot, ((t.commit h writes undoes).table slot).entry = (t.table slot).entry ∨
          ∃ p ∈ (t.hooks h).patches, p.slot = slot ∧
            ((t.commit h writes undoes).table slot).entry = p.original) ∧
        ∀ slot, (∀ p ∈ (t.hooks h).patches, p.slot = slot → p.original = (t.table slot).entry) →
          ((t.commit h writes undoes).table slot).entry = (t.table slot).entry := by
  intro stacked
  have built := Stacked.built_run codes builds
  have kept : Kept codes stacked.shared stacked.order :=
    { once := built.once, listed := built.listed, attached := built.attached
      ends := fun slot => built.laid.unwind (built.entries slot)
      registered := built.registered }
  have shifted := kept.shifts shifts
  refine ⟨fun slot => ?_, fun t h k writes undoes staged short wrote failed undone => ?_⟩
  · rw [Shared.uninstallAll_entry ok shifted.once _ fun h member =>
      ⟨shifted.attached h ((shifted.listed h).mp member), (shifted.listed h).mp member⟩]
    exact shifted.ends slot
  · obtain ⟨patches, committed, entries⟩ :=
      Shared.commit_rolls_back staged short wrote failed undone
    refine ⟨patches, committed, entries, fun slot unchanged => ?_⟩
    rcases entries slot with same | ⟨p, member, here, original⟩
    · exact same
    · rw [original]
      exact unchanged p member here

/-- Two hooks that share a slot, which the module stores anew, beside a slot of one of them. -/
def sharedSlot : List Build :=
  [.attach 0 8, .replace 0 0 0 true true, .replace 0 1 1 true true, .commit 0, .attach 1 8,
    .replace 1 0 2 true true, .commit 1]

theorem stacked_hooks_unwind_shared :
    let stacked := sharedSlot.foldl Stacked.build { shared := .init id }
    let shifted := [Shift.setImplementationModule 0, .moduleWrites 0 7, .moduleWrites 1 9,
      .reclaim 0 [] fun _ => ⟨true, true, true⟩].foldl Shared.shift stacked.shared
    stacked.order = [0, 1] ∧ (shifted.table 1).entry = .thunk 1 ∧
      ((shifted.uninstallAll (fun _ => allOk) stacked.order).table 0).entry = .code 7 ∧
      ((shifted.uninstallAll (fun _ => allOk) stacked.order).table 1).entry = .code 9 := by
  have ends := (stacked_hooks_unwind id sharedSlot [.setImplementationModule 0, .moduleWrites 0 7,
    .moduleWrites 1 9, .reclaim 0 [] fun _ => ⟨true, true, true⟩] (fun _ => allOk)
    fun _ _ => ⟨rfl, rfl⟩).1
  exact ⟨by decide +kernel, by decide +kernel, ends 0, ends 1⟩

/-- Hook 1 stages two slots before hook 0 takes the first of them; then its commit fails. -/
def stagedBefore : Shared :=
  [Build.attach 0 8, .attach 1 8, .replace 1 0 1 true true, .replace 1 1 1 true true,
    .replace 0 0 0 true true, .commit 0].foldl Stacked.build { shared := .init id } |>.shared

/-- The roll-back puts back what the slot held when it was staged, and hook 0 is cut out. -/
theorem rolled_back_over_thunk :
    Stacked.commits stagedBefore 1 = true ∧ (stagedBefore.table 0).entry = .thunk 0 ∧
      ((stagedBefore.commit 1 (fun i => i = 0) fun _ => true).table 0).entry = .code 0 := by
  decide +kernel

end EdvrPatch.VTable
