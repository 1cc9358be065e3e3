import EdvrPatch.Boundary.Lease

/-! The shape of every reachable boundary: how many callbacks of a lease are on the
stack of the render thread is what its counter says, and a lease is with the owner,
or on its way to be deleted, or deleted. -/
namespace EdvrPatch.Boundary

namespace Frame

def about : Frame → Nat
  | callback l => l
  | failing l => l
  | leaving l => l
  | releasing l => l

def inside (l : Nat) : Frame → Bool
  | releasing _ => false
  | f => f.about == l

end Frame

namespace RenderBoundary

variable {r : RenderBoundary} {l : Nat}

/-- The callbacks of a lease that are on the render thread's stack. -/
def insideCount (r : RenderBoundary) (l : Nat) : Nat :=
  match r.renderThread with
  | none => 0
  | some t => (r.stackOf t).countP (Frame.inside l)

structure LeaseSound (r : RenderBoundary) (l : Nat) (lease : Lease) : Prop where
  held : lease.owned = true ↔ r.lease = some l
  active : lease.active = r.insideCount l
  one : lease.active ≤ 1
  passed : lease.owned = false → lease.admitted = false ∧ lease.active = 0
  kept : lease.owned = true → lease.freed = 0 ∧ ∀ t, .releasing l ∉ r.stackOf t
  gone : lease.owned = false →
    lease.freed = 1 ∧ (∀ t, .releasing l ∉ r.stackOf t) ∨
      lease.freed = 0 ∧ ∃ t, (r.stackOf t).count (.releasing l) = 1 ∧
        ∀ u, .releasing l ∈ r.stackOf u → u = t

structure Sound (r : RenderBoundary) : Prop where
  unrecorded : r.owner = false → r.renderThread = none
  named : ∀ l, r.lease = some l → l < r.leases.length
  bounded : ∀ t, ∀ f ∈ r.stackOf t, f.about < r.leases.length
  frames : ∀ t l, (r.stackOf t).countP (Frame.inside l) ≠ 0 → r.renderThread = some t
  lease : ∀ l lease, r.leases[l]? = some lease → LeaseSound r l lease

@[simp] theorem change_leases (r : RenderBoundary) (l : Nat) (f : Lease → Lease) (m : Nat) :
    (r.change l f).leases[m]? = (r.leases[m]?).map fun lease => if l = m then f lease else lease := by
  rw [change, List.getElem?_modify]
  rfl

@[simp] theorem change_length (r : RenderBoundary) (l : Nat) (f : Lease → Lease) :
    (r.change l f).leases.length = r.leases.length :=
  List.length_modify ..

@[simp] theorem setStack_self (r : RenderBoundary) (thread : Nat) (stack : List Frame) :
    (r.setStack thread stack).stackOf thread = stack := if_pos rfl

theorem setStack_other (r : RenderBoundary) (stack : List Frame) {t thread : Nat}
    (other : t ≠ thread) : (r.setStack thread stack).stackOf t = r.stackOf t := if_neg other

/-- What the new stack of a thread has in common with its old one, every stack keeps. -/
theorem setStack_keep (r : RenderBoundary) {α : Type} {thread : Nat} {stack : List Frame}
    (g : List Frame → α) (same : g stack = g (r.stackOf thread)) (t : Nat) :
    g ((r.setStack thread stack).stackOf t) = g (r.stackOf t) := by
  by_cases mine : t = thread
  · rw [mine, setStack_self]
    exact same
  · rw [setStack_other _ _ mine]

theorem Sound.bounded_setStack (h : Sound r) {thread : Nat} {stack : List Frame}
    (bounded : ∀ g ∈ stack, g.about < r.leases.length) (t : Nat) :
    ∀ g ∈ (r.setStack thread stack).stackOf t, g.about < r.leases.length := by
  intro g mem
  by_cases mine : t = thread
  · rw [mine, setStack_self] at mem
    exact bounded g mem
  · rw [setStack_other _ _ mine] at mem
    exact h.bounded t g mem

theorem Sound.init : Sound {} where
  unrecorded := fun _ => rfl
  named := nofun
  bounded := nofun
  frames := by simp
  lease := nofun

theorem Sound.closes (h : Sound r) (l : Nat) :
    Sound (r.change l fun lease => { lease with admitted := false }) := by
  constructor
  · exact h.unrecorded
  · intro m is
    rw [change_length]
    exact h.named m is
  · intro t g mem
    rw [change_length]
    exact h.bounded t g mem
  · exact h.frames
  · intro m lease found
    rw [change_leases] at found
    obtain ⟨was, foundWas, isChanged⟩ := Option.map_eq_some_iff.mp found
    have sound := h.lease m was foundWas
    have same : lease.owned = was.owned ∧ lease.freed = was.freed ∧ lease.active = was.active ∧
        (was.admitted = false → lease.admitted = false) := by
      rw [← isChanged]
      split
      · exact ⟨rfl, rfl, rfl, fun _ => rfl⟩
      · exact ⟨rfl, rfl, rfl, id⟩
    obtain ⟨owned, freed, active, admitted⟩ := same
    constructor
    · rw [owned]
      exact sound.held
    · rw [active]
      exact sound.active
    · rw [active]
      exact sound.one
    · rw [owned, active]
      exact fun passed => ⟨admitted (sound.passed passed).1, (sound.passed passed).2⟩
    · rw [owned, freed]
      exact sound.kept
    · rw [owned, freed]
      exact sound.gone

/-- The render thread goes from one stack to another and a lease changes with it, its
counter by as much as the callbacks of it on the stack. -/
theorem Sound.moves (h : Sound r) {thread : Nat} (isRender : r.renderThread = some thread)
    {stack : List Frame} {f : Lease → Lease} (owned : ∀ lease, (f lease).owned = lease.owned)
    (freed : ∀ lease, (f lease).freed = lease.freed)
    (admitted : ∀ lease, lease.admitted = false → (f lease).admitted = false)
    (bounded : ∀ g ∈ stack, g.about < r.leases.length)
    (releasing : ∀ m, stack.count (.releasing m) = (r.stackOf thread).count (.releasing m))
    (others : ∀ m, m ≠ l →
      stack.countP (Frame.inside m) = (r.stackOf thread).countP (Frame.inside m))
    (counts : ∀ lease, r.leases[l]? = some lease →
      (f lease).active = stack.countP (Frame.inside l) ∧ (f lease).active ≤ 1 ∧
        (lease.owned = false → (f lease).active = 0)) :
    Sound ((r.change l f).setStack thread stack) := by
  have count (t m : Nat) : (((r.change l f).setStack thread stack).stackOf t).count (.releasing m) =
      (r.stackOf t).count (.releasing m) :=
    (r.change l f).setStack_keep (List.count (.releasing m)) (releasing m) t
  have member (t m : Nat) : .releasing m ∈ ((r.change l f).setStack thread stack).stackOf t ↔
      .releasing m ∈ r.stackOf t := by
    rw [← List.count_pos_iff, ← List.count_pos_iff, count]
  have inside (m : Nat) : ((r.change l f).setStack thread stack).insideCount m =
      stack.countP (Frame.inside m) := by
    have isRender : ((r.change l f).setStack thread stack).renderThread = some thread := isRender
    rw [insideCount, isRender]
    dsimp only
    rw [setStack_self]
  have insideWas (m : Nat) : r.insideCount m = (r.stackOf thread).countP (Frame.inside m) := by
    rw [insideCount, isRender]
  constructor
  · exact h.unrecorded
  · intro m is
    exact (change_length r l f).symm ▸ h.named m is
  · intro t g mem
    exact (change_length r l f).symm ▸ h.bounded_setStack bounded t g mem
  · intro t m nonzero
    by_cases mine : t = thread
    · rw [mine]
      exact isRender
    · rw [setStack_other _ _ mine] at nonzero
      exact h.frames t m nonzero
  · intro m lease found
    have found := (change_leases r l f m).symm.trans found
    obtain ⟨was, foundWas, isChanged⟩ := Option.map_eq_some_iff.mp found
    have sound := h.lease m was foundWas
    have same : lease.owned = was.owned ∧ lease.freed = was.freed ∧
        (was.admitted = false → lease.admitted = false) := by
      rw [← isChanged]
      split
      · exact ⟨owned was, freed was, admitted was⟩
      · exact ⟨rfl, rfl, id⟩
    have active : lease.active = stack.countP (Frame.inside m) ∧ lease.active ≤ 1 ∧
        (was.owned = false → lease.active = 0) := by
      rw [← isChanged]
      split
      · rename_i here
        subst here
        exact counts was foundWas
      · rename_i other
        rw [others m (Ne.symm other), ← insideWas]
        exact ⟨sound.active, sound.one, fun passed => (sound.passed passed).2⟩
    obtain ⟨isOwned, isFreed, isAdmitted⟩ := same
    constructor
    · rw [isOwned]
      exact sound.held
    · rw [inside]
      exact active.1
    · exact active.2.1
    · rw [isOwned]
      exact fun passed => ⟨isAdmitted (sound.passed passed).1, active.2.2 passed⟩
    · rw [isOwned, isFreed]
      simp only [member]
      exact sound.kept
    · rw [isOwned, isFreed]
      simp only [member, count]
      exact sound.gone

section Moves

variable {thread : Nat} {rest : List Frame}

theorem Sound.present (h : Sound r) (thread : Nat) (ours : Bool) :
    Sound (r.present thread ours).1 := by
  unfold RenderBoundary.present
  split
  · exact h
  split
  · exact h
  rename_i l isLease
  split
  · exact h.closes l
  rename_i isRender
  rw [ne_eq, not_not] at isRender
  split
  · exact h
  rename_i lease found
  split
  · exact h
  rename_i idle
  simp only [not_or, not_not, ne_eq] at idle
  have sound := h.lease l lease found
  have counted : lease.active = (r.stackOf thread).countP (Frame.inside l) := by
    rw [sound.active, insideCount, isRender]
  refine h.moves isRender (fun _ => rfl) (fun _ => rfl) (fun _ => id) ?_ ?_ ?_ ?_
  · intro g mem
    rcases List.mem_cons.mp mem with rfl | mem
    · exact h.named l isLease
    · exact h.bounded thread g mem
  · intro m
    simp
  · intro m other
    simp [Frame.inside, Frame.about, Ne.symm other]
  · intro was foundWas
    rw [found] at foundWas
    cases foundWas
    refine ⟨?_, ?_, ?_⟩
    · simp [Frame.inside, Frame.about, counted]
    · simp [idle.2]
    · intro passed
      rw [(sound.held).mpr isLease] at passed
      cases passed

theorem Sound.thread_of_top (h : Sound r) {f : Frame} (isStack : r.stackOf thread = f :: rest)
    (calls : f.inside f.about = true) : r.renderThread = some thread := by
  apply h.frames thread f.about
  rw [isStack, List.countP_cons_of_pos calls]
  exact Nat.succ_ne_zero _

theorem Sound.replaces (h : Sound r) {f g : Frame} {change : Lease → Lease}
    (isStack : r.stackOf thread = f :: rest) (calls : f.inside l = true) (calls' : g.inside l = true)
    (active : ∀ lease, (change lease).active = lease.active)
    (owned : ∀ lease, (change lease).owned = lease.owned)
    (freed : ∀ lease, (change lease).freed = lease.freed)
    (admitted : ∀ lease, lease.admitted = false → (change lease).admitted = false) :
    Sound ((r.change l change).setStack thread (g :: rest)) := by
  have about {f : Frame} (calls : f.inside l = true) :
      f.about = l ∧ ∀ m, f ≠ .releasing m ∧ (m ≠ l → f.inside m = false) := by
    cases f with
    | releasing m => cases calls
    | _ =>
      have same := beq_iff_eq.mp calls
      refine ⟨same, fun m => ⟨nofun, fun other => ?_⟩⟩
      change (_ == m) = false
      rw [same, beq_eq_false_iff_ne]
      exact other.symm
  obtain ⟨isAbout, apart⟩ := about calls
  obtain ⟨isAbout', apart'⟩ := about calls'
  have isRender := h.thread_of_top isStack (isAbout ▸ calls)
  refine h.moves isRender owned freed admitted ?_ ?_ ?_ ?_
  · intro k mem
    rcases List.mem_cons.mp mem with rfl | mem
    · rw [isAbout', ← isAbout]
      exact h.bounded thread f (isStack ▸ List.mem_cons_self)
    · exact h.bounded thread k (isStack ▸ List.mem_cons_of_mem f mem)
  · intro m
    rw [isStack, List.count_cons_of_ne (apart' m).1, List.count_cons_of_ne (apart m).1]
  · intro m other
    rw [isStack, List.countP_cons_of_neg (by simp [(apart' m).2 other]),
      List.countP_cons_of_neg (by simp [(apart m).2 other])]
  · intro lease found
    have sound := h.lease l lease found
    have counted : lease.active = (f :: rest).countP (Frame.inside l) := by
      rw [sound.active, insideCount, isRender]
      dsimp only
      rw [isStack]
    rw [active]
    refine ⟨?_, sound.one, fun passed => (sound.passed passed).2⟩
    rw [counted, List.countP_cons_of_pos calls, List.countP_cons_of_pos calls']

theorem Sound.leaves (h : Sound r) (isStack : r.stackOf thread = .leaving l :: rest) :
    Sound ((r.change l fun lease => { lease with active := lease.active - 1 }).setStack thread
      rest) := by
  have calls : Frame.inside l (.leaving l) = true := beq_self_eq_true l
  have isRender := h.thread_of_top isStack calls
  refine h.moves isRender (fun _ => rfl) (fun _ => rfl) (fun _ => id) ?_ ?_ ?_ ?_
  · intro k mem
    exact h.bounded thread k (isStack ▸ List.mem_cons_of_mem _ mem)
  · intro m
    rw [isStack]
    simp
  · intro m other
    rw [isStack]
    simp [Frame.inside, Frame.about, Ne.symm other]
  · intro lease found
    have sound := h.lease l lease found
    have counted : lease.active = rest.countP (Frame.inside l) + 1 := by
      rw [sound.active, insideCount, isRender]
      dsimp only
      rw [isStack, List.countP_cons_of_pos calls]
    have one := sound.one
    dsimp only
    omega

theorem Sound.callbackReturns (h : Sound r) (thread : Nat) (failed : Bool) :
    Sound (r.callbackReturns thread failed).1 := by
  unfold RenderBoundary.callbackReturns
  split
  · rename_i l rest isStack
    have same : r = r.change l id := by
      rw [change, List.modify_id]
    have calls : Frame.inside l (.callback l) = true := beq_self_eq_true l
    have calls' : Frame.inside l (if failed then .failing l else .leaving l) = true := by
      cases failed
      · exact beq_self_eq_true l
      · exact beq_self_eq_true l
    have sound : Sound ((r.change l id).setStack thread
        ((if failed then .failing l else .leaving l) :: rest)) :=
      h.replaces isStack calls calls' (fun _ => rfl) (fun _ => rfl) (fun _ => rfl) (fun _ => id)
    rw [← same] at sound
    exact sound
  · exact h

theorem Sound.frees (h : Sound r) (isStack : r.stackOf thread = .releasing l :: rest) :
    Sound ((r.change l fun lease => { lease with freed := lease.freed + 1 }).setStack thread
      rest) := by
  have inside (t m : Nat) : (((r.change l fun lease => { lease with freed := lease.freed + 1 }).setStack
      thread rest).stackOf t).countP (Frame.inside m) = (r.stackOf t).countP (Frame.inside m) :=
    r.setStack_keep (List.countP (Frame.inside m))
      (by rw [isStack, List.countP_cons_of_neg Bool.false_ne_true]) t
  have count (t m : Nat) (other : m ≠ l) :
      (((r.change l fun lease => { lease with freed := lease.freed + 1 }).setStack
        thread rest).stackOf t).count (.releasing m) = (r.stackOf t).count (.releasing m) :=
    r.setStack_keep (List.count (.releasing m)) (by rw [isStack]; simp [Ne.symm other]) t
  constructor
  · exact h.unrecorded
  · intro m is
    exact (change_length r l _).symm ▸ h.named m is
  · intro t g mem
    have bounded := List.forall_mem_of_forall_mem_cons (isStack ▸ h.bounded thread)
    exact (change_length r l _).symm ▸ h.bounded_setStack bounded t g mem
  · intro t m nonzero
    rw [inside] at nonzero
    exact h.frames t m nonzero
  · intro m lease found
    have found := (change_leases r l _ m).symm.trans found
    obtain ⟨was, foundWas, isChanged⟩ := Option.map_eq_some_iff.mp found
    have sound := h.lease m was foundWas
    have active : ((r.change l fun lease => { lease with freed := lease.freed + 1 }).setStack
        thread rest).insideCount m = r.insideCount m := by
      unfold insideCount
      change (match r.renderThread with | none => 0 | some t => _) = _
      cases r.renderThread with
      | none => rfl
      | some t => exact inside t m
    by_cases here : l = m
    · subst here
      rw [if_pos rfl] at isChanged
      subst isChanged
      have unowned : was.owned = false := by
        cases owned : was.owned with
        | false => rfl
        | true => exact absurd (isStack ▸ List.mem_cons_self) ((sound.kept owned).2 thread)
      refine ⟨sound.held, sound.active.trans active.symm, sound.one, sound.passed, ?_, fun _ => ?_⟩
      · intro owned
        rw [show was.owned = true from owned] at unowned
        cases unowned
      · rcases sound.gone unowned with ⟨_, none'⟩ | ⟨kept, t, one, only⟩
        · exact absurd (isStack ▸ List.mem_cons_self) (none' thread)
        · have mine : thread = t := only thread (isStack ▸ List.mem_cons_self)
          subst mine
          rw [isStack, List.count_cons_self] at one
          refine .inl ⟨by dsimp only; omega, fun u mem => ?_⟩
          by_cases same : u = thread
          · rw [same, setStack_self] at mem
            have := List.count_pos_iff.mpr mem
            omega
          · rw [setStack_other _ _ same] at mem
            exact same (only u mem)
    · rw [if_neg here] at isChanged
      subst isChanged
      have member (t : Nat) : .releasing m ∈ ((r.change l fun lease =>
          { lease with freed := lease.freed + 1 }).setStack thread rest).stackOf t ↔
          .releasing m ∈ r.stackOf t := by
        rw [← List.count_pos_iff, ← List.count_pos_iff, count t m (Ne.symm here)]
      refine ⟨sound.held, sound.active.trans active.symm, sound.one, sound.passed, ?_, ?_⟩
      · simp only [member]
        exact sound.kept
      · simp only [member, count _ m (Ne.symm here)]
        exact sound.gone

theorem Sound.proceed (h : Sound r) (thread : Nat) : Sound (r.proceed thread).1 := by
  unfold RenderBoundary.proceed
  split
  · rename_i l rest isStack
    exact h.replaces isStack (beq_self_eq_true l) (beq_self_eq_true l) (fun _ => rfl)
      (fun _ => rfl) (fun _ => rfl) (fun _ _ => rfl)
  · rename_i isStack
    exact h.leaves isStack
  · rename_i isStack
    exact h.frees isStack
  · exact h

theorem Sound.acquire (h : Sound r) (granted : Bool) : Sound (r.acquire granted).1 := by
  unfold RenderBoundary.acquire
  split
  · exact h
  rename_i free
  simp only [not_or, Bool.not_eq_true, Option.isSome_eq_false_iff, Option.isNone_iff_eq_none] at free
  obtain ⟨_, _, free⟩ := free
  have unnamed (t : Nat) (f : Frame) (mem : f ∈ r.stackOf t) : f.about ≠ r.leases.length :=
    Nat.ne_of_lt (h.bounded t f mem)
  constructor
  · exact h.unrecorded
  · intro m is
    cases is
    simp
  · intro t g mem
    have := h.bounded t g mem
    simp
    omega
  · exact h.frames
  · intro m lease found
    rw [List.getElem?_append] at found
    split at found
    · rename_i small
      have sound := h.lease m lease found
      refine ⟨?_, sound.active, sound.one, sound.passed, sound.kept, sound.gone⟩
      rw [sound.held, free]
      constructor
      · nofun
      · intro last
        cases last
        exact absurd small (Nat.lt_irrefl _)
    · rename_i large
      have last : m = r.leases.length := by
        by_contra other
        rw [List.getElem?_eq_none (by simp; omega)] at found
        cases found
      subst last
      rw [Nat.sub_self] at found
      cases found
      have none' : r.insideCount r.leases.length = 0 := by
        unfold insideCount
        split
        · rfl
        · rename_i t _
          rw [List.countP_eq_zero]
          intro f mem inside
          cases f with
          | releasing l => cases inside
          | _ => exact unnamed t _ mem (beq_iff_eq.mp inside)
      refine ⟨⟨fun _ => rfl, fun _ => rfl⟩, none'.symm, Nat.zero_le _, nofun, fun _ => ⟨rfl, ?_⟩, nofun⟩
      intro t mem
      exact unnamed t _ mem rfl

theorem Sound.passes (h : Sound r) {lease : Lease} (found : r.leases[l]? = some lease)
    (owned : lease.owned = true) (idle : lease.active = 0) {r' : RenderBoundary}
    (stackOf : r'.stackOf = (r.setStack thread (.releasing l :: r.stackOf thread)).stackOf)
    (leases : ∀ m : Nat, r'.leases[m]? = (r.leases[m]?).map fun lease =>
      if l = m then { lease with admitted := false, owned := false } else lease)
    (length : r'.leases.length = r.leases.length) (free : r'.lease = none)
    (render : r'.renderThread = r.renderThread) (owner : r'.owner = r.owner) : Sound r' := by
  have isLease := (h.lease l lease found).held.mp owned
  have unreleased := ((h.lease l lease found).kept owned).2
  have inside (t m : Nat) : (r'.stackOf t).countP (Frame.inside m) =
      (r.stackOf t).countP (Frame.inside m) := by
    rw [stackOf]
    refine r.setStack_keep (List.countP (Frame.inside m)) ?_ t
    exact List.countP_cons_of_neg Bool.false_ne_true
  have insides (m : Nat) : r'.insideCount m = r.insideCount m := by
    unfold insideCount
    rw [render]
    cases r.renderThread with
    | none => rfl
    | some t => exact inside t m
  have count (t m : Nat) (other : m ≠ l) : (r'.stackOf t).count (.releasing m) =
      (r.stackOf t).count (.releasing m) := by
    rw [stackOf]
    exact r.setStack_keep (List.count (.releasing m)) (by simp [Ne.symm other]) t
  have member (t m : Nat) (other : m ≠ l) : .releasing m ∈ r'.stackOf t ↔
      .releasing m ∈ r.stackOf t := by
    rw [← List.count_pos_iff, ← List.count_pos_iff, count t m other]
  refine ⟨?_, ?_, ?_, ?_, ?_⟩
  · rw [owner, render]
    exact h.unrecorded
  · rw [free]
    nofun
  · intro t g mem
    rw [length]
    rw [stackOf] at mem
    have named : Frame.about (.releasing l) < r.leases.length := h.named l isLease
    exact h.bounded_setStack (List.forall_mem_cons.mpr ⟨named, h.bounded thread⟩) t g mem
  · intro t m nonzero
    rw [inside] at nonzero
    rw [render]
    exact h.frames t m nonzero
  · intro m after foundAfter
    rw [leases] at foundAfter
    obtain ⟨was, foundWas, isChanged⟩ := Option.map_eq_some_iff.mp foundAfter
    have sound := h.lease m was foundWas
    by_cases here : l = m
    · subst here
      rw [found] at foundWas
      cases foundWas
      rw [if_pos rfl] at isChanged
      subst isChanged
      refine ⟨?_, sound.active.trans (insides l).symm, sound.one, fun _ => ⟨rfl, idle⟩, nofun,
        fun _ => .inr ⟨(sound.kept owned).1, thread, ?_, ?_⟩⟩
      · rw [free]
        exact ⟨nofun, nofun⟩
      · rw [stackOf, setStack_self, List.count_cons_self, List.count_eq_zero_of_not_mem (unreleased thread)]
      · intro u mem
        by_contra other
        rw [stackOf, setStack_other _ _ other] at mem
        exact unreleased u mem
    · rw [if_neg here] at isChanged
      subst isChanged
      refine ⟨?_, sound.active.trans (insides m).symm, sound.one, sound.passed, ?_, ?_⟩
      · rw [sound.held, isLease, free]
        constructor
        · intro same
          exact absurd (Option.some.inj same) here
        · nofun
      · simp only [member _ m (Ne.symm here)]
        exact sound.kept
      · simp only [member _ m (Ne.symm here), count _ m (Ne.symm here)]
        exact sound.gone

theorem Sound.release (h : Sound r) (thread l : Nat)
    (owned : ∀ lease, r.leases[l]? = some lease → lease.owned = true) :
    Sound (r.release thread l).1 := by
  unfold RenderBoundary.release
  split
  · exact h
  rename_i lease found
  split
  · exact h.closes l
  rename_i idle
  rw [ne_eq, not_not] at idle
  have isLease := (h.lease l lease found).held.mp (owned lease found)
  refine h.passes found (owned lease found) idle rfl ?_ ?_ (if_pos isLease) rfl rfl
  · intro m
    refine (change_leases _ l _ m).trans ?_
    rw [change_leases, Option.map_map]
    congr 1
    funext was
    by_cases here : l = m
    · simp [here]
    · simp [here]
  · exact (change_length _ l _).trans (change_length r l _)

theorem Sound.records (h : Sound r) (unrecorded : r.renderThread = none) {r' : RenderBoundary}
    (stackOf : r'.stackOf = r.stackOf) (leases : r'.leases = r.leases) (lease : r'.lease = r.lease)
    (owner : r'.owner = false → r'.renderThread = none) : Sound r' := by
  have none' (t m : Nat) : (r.stackOf t).countP (Frame.inside m) = 0 := by
    by_contra nonzero
    have isRender := h.frames t m nonzero
    rw [unrecorded] at isRender
    cases isRender
  have inside (m : Nat) : r'.insideCount m = 0 := by
    unfold insideCount
    split
    · rfl
    · rw [stackOf]
      exact none' _ m
  refine ⟨owner, ?_, ?_, ?_, ?_⟩
  · rw [lease, leases]
    exact h.named
  · rw [stackOf, leases]
    exact h.bounded
  · intro t m nonzero
    rw [stackOf] at nonzero
    exact absurd (none' t m) nonzero
  · intro m found isFound
    rw [leases] at isFound
    have sound := h.lease m found isFound
    have active := sound.active
    rw [insideCount, unrecorded] at active
    refine ⟨?_, active.trans (inside m).symm, sound.one, sound.passed, ?_, ?_⟩
    · rw [lease]
      exact sound.held
    · rw [stackOf]
      exact sound.kept
    · rw [stackOf]
      exact sound.gone

theorem Sound.registerOwner (h : Sound r) (fits : Bool) : Sound (r.registerOwner fits) := by
  unfold RenderBoundary.registerOwner
  split
  · exact h
  · rename_i free
    simp only [not_or, Bool.not_eq_true] at free
    exact h.records (h.unrecorded free.1) rfl rfl rfl nofun

theorem Sound.noteOwnedPresent (h : Sound r) (thread : Nat) (ours : Bool) :
    Sound (r.noteOwnedPresent thread ours) := by
  unfold RenderBoundary.noteOwnedPresent
  split
  · rename_i isOwner
    split
    · rename_i first
      refine h.records first.2 rfl rfl rfl fun unowned => ?_
      rw [show r.owner = false from unowned] at isOwner
      cases isOwner
    · exact h
  · rename_i unowned
    rw [Bool.not_eq_true] at unowned
    split
    · exact h.records (h.unrecorded unowned) rfl rfl rfl fun _ => h.unrecorded unowned
    · exact h

theorem Sound.step (h : Sound r) (thread : Nat) (move : BoundaryMove)
    (owned : ∀ l lease, move = .release l → r.leases[l]? = some lease → lease.owned = true) :
    Sound (r.step thread move).1 := by
  unfold RenderBoundary.step
  split
  · exact h.proceed thread
  · exact h.callbackReturns thread _
  split
  · exact h
  split
  · exact h.registerOwner _
  · exact h.noteOwnedPresent thread _
  · exact h.present thread _
  · exact h.acquire _
  · rename_i l _ _
    unfold RenderBoundary.close
    split
    · exact h
    · exact h.closes l
  · rename_i l _ _
    exact h.release thread l fun lease => owned l lease rfl
  · exact h

end Moves

end RenderBoundary

end EdvrPatch.Boundary
