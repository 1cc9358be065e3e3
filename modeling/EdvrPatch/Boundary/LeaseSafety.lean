import EdvrPatch.Boundary.LeaseSound

/-! No callback outlives its lease. The caller's part is what the header asks for: a
lease is not used while it is being released, nor after the release went through. -/
namespace EdvrPatch.Boundary

def BoundaryEvent.about : BoundaryEvent → Nat
  | .acquired l => l
  | .closed l _ => l
  | .released l _ => l
  | .freed l => l
  | .touched _ l => l
  | .began _ l => l
  | .returned _ l _ => l
  | .foreign _ l => l

def BoundaryMove.uses : BoundaryMove → Option Nat
  | .close l => some l
  | .release l => some l
  | _ => none

/-- Lease operations are serialized, and none follows a release that went through. -/
def Serialized (r : RenderBoundary) (log : List BoundaryEvent) (move : BoundaryMove) : Prop :=
  ∀ l, move.uses = some l → .released l true ∉ log ∧ ∀ t, .releasing l ∉ r.stackOf t

namespace RenderBoundary

/-- What a step does to one lease, against what is seen of it. -/
structure Effect (r r' : RenderBoundary) (events : List BoundaryEvent) (l : Nat)
    (lease lease' : Lease) : Prop where
  admitted : lease.admitted = false → lease'.admitted = false ∧ lease'.active ≤ lease.active
  freed : lease'.freed = lease.freed + events.count (.freed l)
  released : .released l true ∈ events ↔ .freed l ∈ events
  closed : .closed l true ∈ events → lease'.admitted = false ∧ lease'.active = 0
  foreign : ∀ t, .foreign t l ∈ events → lease'.admitted = false
  failed : ∀ t, .returned t l true ∈ events →
    lease'.admitted = false ∨ ∃ u, .failing l ∈ r'.stackOf u
  failing : ∀ u, .failing l ∈ r.stackOf u → .failing l ∈ r'.stackOf u ∨ lease'.admitted = false
  began : ∀ t, .began t l ∈ events →
    lease.admitted = true ∧ lease.active = 0 ∧ r.renderThread = some t
  touched : ∀ t, .touched t l ∈ events → lease.owned = true

variable {r : RenderBoundary} {l : Nat} {lease : Lease}

variable {r' : RenderBoundary}

theorem Effect.apart {events : List BoundaryEvent} (none' : ∀ e ∈ events, e.about ≠ l)
    (failing : ∀ u, .failing l ∈ r.stackOf u → .failing l ∈ r'.stackOf u) :
    Effect r r' events l lease lease where
  admitted := fun closed => ⟨closed, Nat.le_refl _⟩
  freed := by
    rw [List.count_eq_zero_of_not_mem fun mem => none' _ mem rfl]
    rfl
  released := ⟨fun mem => absurd rfl (none' _ mem), fun mem => absurd rfl (none' _ mem)⟩
  closed := fun mem => absurd rfl (none' _ mem)
  foreign := fun _ mem => absurd rfl (none' _ mem)
  failed := fun _ mem => absurd rfl (none' _ mem)
  failing := fun u mem => .inl (failing u mem)
  began := fun _ mem => absurd rfl (none' _ mem)
  touched := fun _ mem => absurd rfl (none' _ mem)

theorem change_lease_other (r : RenderBoundary) (f : Lease → Lease) {l m : Nat} (other : l ≠ m) :
    (r.change l f).leases[m]? = r.leases[m]? := by
  simp [other]

theorem change_lease_self (r : RenderBoundary) (f : Lease → Lease) (l : Nat) :
    (r.change l f).leases[l]? = (r.leases[l]?).map f := by
  simp

variable {thread : Nat}

theorem failing_setStack {u : Nat} {stack : List Frame}
    (kept : .failing l ∈ r.stackOf thread → .failing l ∈ stack) (mem : .failing l ∈ r.stackOf u) :
    .failing l ∈ (r.setStack thread stack).stackOf u := by
  by_cases mine : u = thread
  · rw [mine, setStack_self]
    rw [mine] at mem
    exact kept mem
  · rw [setStack_other _ _ mine]
    exact mem

/-- A step leaves every lease in its place, changed as far as can be seen; a lease it
adds is new. -/
structure Seen (r : RenderBoundary) (result : RenderBoundary × List BoundaryEvent) : Prop where
  kept : ∀ l lease, r.leases[l]? = some lease →
    ∃ lease', result.1.leases[l]? = some lease' ∧ Effect r result.1 result.2 l lease lease'
  known : ∀ e ∈ result.2, e.about < result.1.leases.length
  longer : r.leases.length ≤ result.1.leases.length
  added : ∀ l lease, r.leases.length ≤ l → result.1.leases[l]? = some lease →
    lease = { admitted := true } ∧ ∀ e ∈ result.2, e = .acquired l

theorem Seen.same (leases : r'.leases = r.leases) (stackOf : r'.stackOf = r.stackOf) :
    Seen r (r', []) where
  kept := by
    intro l lease found
    refine ⟨lease, leases ▸ found, .apart nofun ?_⟩
    intro u mem
    rw [stackOf]
    exact mem
  known := nofun
  longer := Nat.le_of_eq (congrArg List.length leases.symm)
  added := by
    intro l lease large found
    rw [leases, List.getElem?_eq_none large] at found
    cases found

theorem Seen.of_change {f : Lease → Lease} {events : List BoundaryEvent} {m : Nat}
    (small : m < r.leases.length) (leases : r'.leases = (r.change m f).leases)
    (only : ∀ e ∈ events, e.about = m)
    (failing : ∀ l, l ≠ m → ∀ u, .failing l ∈ r.stackOf u → .failing l ∈ r'.stackOf u)
    (effect : ∀ lease, r.leases[m]? = some lease → Effect r r' events m lease (f lease)) :
    Seen r (r', events) where
  kept := by
    intro l lease found
    rw [leases]
    by_cases here : m = l
    · subst here
      rw [change_lease_self, found]
      exact ⟨_, rfl, effect lease found⟩
    · rw [change_lease_other r f here, found]
      refine ⟨lease, rfl, .apart (fun e mem => ?_) (failing l (Ne.symm here))⟩
      rw [only e mem]
      exact here
  known := by
    intro e mem
    rw [only e mem, leases, change_length]
    exact small
  longer := by
    exact Nat.le_of_eq (by rw [leases, change_length])
  added := by
    intro l lease large found
    rw [leases, List.getElem?_eq_none (by rw [change_length]; exact large)] at found
    cases found

theorem leases_change_id (r : RenderBoundary) (m : Nat) : r.leases = (r.change m id).leases := by
  rw [change, List.modify_id]

theorem Sound.owned_of_top (h : Sound r) {f : Frame} {rest : List Frame}
    (isStack : r.stackOf thread = f :: rest) (calls : f.inside f.about = true)
    (found : r.leases[f.about]? = some lease) : lease.owned = true := by
  have sound := h.lease f.about lease found
  have active : lease.active ≠ 0 := by
    rw [sound.active, insideCount, h.thread_of_top isStack calls]
    dsimp only
    rw [isStack, List.countP_cons_of_pos calls]
    exact Nat.succ_ne_zero _
  cases owned : lease.owned with
  | true => rfl
  | false => exact absurd (sound.passed owned).2 active

theorem Sound.top_bounded (h : Sound r) {f : Frame} {rest : List Frame}
    (isStack : r.stackOf thread = f :: rest) : f.about < r.leases.length := by
  apply h.bounded thread
  rw [isStack]
  exact List.mem_cons_self

theorem present_seen (h : Sound r) (thread : Nat) (ours : Bool) : Seen r (r.present thread ours) := by
  unfold present
  split
  · exact .same rfl rfl
  split
  · exact .same rfl rfl
  rename_i m isLease
  have small := h.named m isLease
  have owned (lease : Lease) (found : r.leases[m]? = some lease) : lease.owned = true :=
    (h.lease m lease found).held.mpr isLease
  split
  · refine .of_change small rfl (by simp [BoundaryEvent.about]) (fun _ _ _ mem => mem) fun lease found => ?_
    exact {
      admitted := fun _ => ⟨rfl, Nat.le_refl _⟩
      freed := by simp
      released := by simp
      closed := by simp
      foreign := fun _ _ => rfl
      failed := by simp
      failing := fun _ mem => .inl mem
      began := by simp
      touched := fun _ _ => owned lease found }
  rename_i isRender
  rw [ne_eq, not_not] at isRender
  split
  · exact .same rfl rfl
  rename_i lease found
  split
  · refine .of_change small (leases_change_id r m) (by simp [BoundaryEvent.about])
      (fun _ _ _ mem => mem) fun lease found => ?_
    exact {
      admitted := fun closed => ⟨closed, Nat.le_refl _⟩
      freed := by simp
      released := by simp
      closed := by simp
      foreign := by simp
      failed := by simp
      failing := fun _ mem => .inl mem
      began := by simp
      touched := fun _ _ => owned lease found }
  · rename_i idle
    simp only [not_or, not_not, ne_eq] at idle
    refine .of_change small rfl (by simp [BoundaryEvent.about])
      (fun _ _ _ mem => failing_setStack (fun mem => List.mem_cons_of_mem _ mem) mem)
      fun other isOther => ?_
    rw [found] at isOther
    cases isOther
    exact {
      admitted := fun closed => absurd idle.1 (by simp [closed])
      freed := by simp
      released := by simp
      closed := by simp
      foreign := by simp
      failed := by simp
      failing := fun _ mem => .inl (failing_setStack (fun mem => List.mem_cons_of_mem _ mem) mem)
      began := by
        intro t mem
        simp only [List.mem_cons, reduceCtorEq, BoundaryEvent.began.injEq, List.not_mem_nil,
          or_false, false_or] at mem
        rw [mem.1]
        exact ⟨idle.1, idle.2, isRender⟩
      touched := fun _ _ => owned lease found }

theorem proceed_seen (h : Sound r) (thread : Nat) : Seen r (r.proceed thread) := by
  unfold proceed
  split
  · rename_i m rest isStack
    have small : m < r.leases.length := h.top_bounded isStack
    have kept {l : Nat} (other : l ≠ m) (mem : .failing l ∈ r.stackOf thread) :
        .failing l ∈ Frame.leaving m :: rest := by
      rw [isStack] at mem
      simpa [other] using mem
    refine .of_change small rfl (by simp [BoundaryEvent.about])
      (fun l other _ mem => failing_setStack (kept other) mem) fun lease found => ?_
    exact {
      admitted := fun _ => ⟨rfl, Nat.le_refl _⟩
      freed := by simp
      released := by simp
      closed := by simp
      foreign := by simp
      failed := by simp
      failing := fun _ _ => .inr rfl
      began := by simp
      touched := fun _ _ => h.owned_of_top isStack (beq_self_eq_true m) found }
  · rename_i m rest isStack
    have small : m < r.leases.length := h.top_bounded isStack
    have kept {l : Nat} (mem : .failing l ∈ r.stackOf thread) : .failing l ∈ rest := by
      rw [isStack] at mem
      simpa using mem
    refine .of_change small rfl (by simp [BoundaryEvent.about])
      (fun l _ _ mem => failing_setStack kept mem) fun lease found => ?_
    exact {
      admitted := fun closed => ⟨closed, Nat.sub_le _ _⟩
      freed := by simp
      released := by simp
      closed := by simp
      foreign := by simp
      failed := by simp
      failing := fun _ mem => .inl (failing_setStack kept mem)
      began := by simp
      touched := fun _ _ => h.owned_of_top isStack (beq_self_eq_true m) found }
  · rename_i m rest isStack
    have small : m < r.leases.length := h.top_bounded isStack
    have kept {l : Nat} (mem : .failing l ∈ r.stackOf thread) : .failing l ∈ rest := by
      rw [isStack] at mem
      simpa using mem
    refine .of_change small rfl (by simp [BoundaryEvent.about])
      (fun l _ _ mem => failing_setStack kept mem) fun lease found => ?_
    exact {
      admitted := fun closed => ⟨closed, Nat.le_refl _⟩
      freed := by simp
      released := by simp
      closed := by simp
      foreign := by simp
      failed := by simp
      failing := fun _ mem => .inl (failing_setStack kept mem)
      began := by simp
      touched := by simp }
  · exact .same rfl rfl

theorem callbackReturns_seen (h : Sound r) (thread : Nat) (failed : Bool) :
    Seen r (r.callbackReturns thread failed) := by
  unfold callbackReturns
  split
  · rename_i m rest isStack
    have small : m < r.leases.length := h.top_bounded isStack
    have kept {l : Nat} (mem : .failing l ∈ r.stackOf thread) :
        .failing l ∈ (if failed then Frame.failing m else .leaving m) :: rest := by
      rw [isStack] at mem
      exact List.mem_cons_of_mem _ (by simpa using mem)
    refine .of_change small (leases_change_id r m) (by simp [BoundaryEvent.about])
      (fun l _ _ mem => failing_setStack kept mem) fun lease found => ?_
    exact {
      admitted := fun closed => ⟨closed, Nat.le_refl _⟩
      freed := by simp
      released := by simp
      closed := by simp
      foreign := by simp
      failed := by
        intro t mem
        simp only [List.mem_cons, BoundaryEvent.returned.injEq, List.not_mem_nil, or_false] at mem
        refine .inr ⟨thread, ?_⟩
        rw [setStack_self, ← mem.2.2]
        exact List.mem_cons_self
      failing := fun _ mem => .inl (failing_setStack kept mem)
      began := by simp
      touched := by simp }
  · exact .same rfl rfl

theorem acquire_seen (r : RenderBoundary) (granted : Bool) : Seen r (r.acquire granted) := by
  unfold acquire
  split
  · exact .same rfl rfl
  refine ⟨?_, ?_, ?_, ?_⟩
  · intro l lease found
    have small : l < r.leases.length := (List.getElem?_eq_some_iff.mp found).1
    refine ⟨lease, ?_, .apart ?_ fun _ mem => mem⟩
    · dsimp only
      rw [List.getElem?_append_left small]
      exact found
    · intro e mem
      cases List.mem_singleton.mp mem
      exact Nat.ne_of_gt small
  · intro e mem
    cases List.mem_singleton.mp mem
    simp [BoundaryEvent.about]
  · simp
  · intro l lease large found
    have last : l = r.leases.length := by
      by_contra other
      rw [List.getElem?_eq_none (by simp; omega)] at found
      cases found
    subst last
    rw [List.getElem?_append_right (Nat.le_refl _), Nat.sub_self] at found
    cases found
    refine ⟨rfl, fun e mem => ?_⟩
    exact List.mem_singleton.mp mem

theorem close_seen (r : RenderBoundary) (m : Nat) : Seen r (r.close m) := by
  unfold close
  split
  · exact .same rfl rfl
  rename_i lease found
  have small : m < r.leases.length := (List.getElem?_eq_some_iff.mp found).1
  refine .of_change small rfl (by simp [BoundaryEvent.about]) (fun _ _ _ mem => mem) fun other isOther => ?_
  rw [found] at isOther
  cases isOther
  exact {
    admitted := fun _ => ⟨rfl, Nat.le_refl _⟩
    freed := by simp
    released := by simp
    closed := by
      intro mem
      simp only [List.mem_cons, BoundaryEvent.closed.injEq, true_and, List.not_mem_nil, or_false] at mem
      exact ⟨rfl, beq_iff_eq.mp mem.symm⟩
    foreign := by simp
    failed := by simp
    failing := fun _ mem => .inl mem
    began := by simp
    touched := by simp }

theorem release_seen (r : RenderBoundary) (thread m : Nat) : Seen r (r.release thread m) := by
  unfold release
  split
  · exact .same rfl rfl
  rename_i lease found
  have small : m < r.leases.length := (List.getElem?_eq_some_iff.mp found).1
  split
  · refine .of_change small rfl (by simp [BoundaryEvent.about]) (fun _ _ _ mem => mem) fun _ _ => ?_
    exact {
      admitted := fun _ => ⟨rfl, Nat.le_refl _⟩
      freed := by simp
      released := by simp
      closed := by simp
      foreign := by simp
      failed := by simp
      failing := fun _ mem => .inl mem
      began := by simp
      touched := by simp }
  · have leases : ((r.leases.modify m fun lease => { lease with admitted := false }).modify m
        fun lease => { lease with owned := false }) =
        (r.change m fun lease => { lease with admitted := false, owned := false }).leases :=
      List.modify_modify_eq ..
    have kept {l u : Nat} (mem : .failing l ∈ r.stackOf u) :
        .failing l ∈ (r.setStack thread (.releasing m :: r.stackOf thread)).stackOf u :=
      failing_setStack (fun mem => List.mem_cons_of_mem _ mem) mem
    refine .of_change small leases nofun (fun _ _ _ mem => kept mem) fun _ _ => ?_
    exact {
      admitted := fun _ => ⟨rfl, Nat.le_refl _⟩
      freed := by simp
      released := by simp
      closed := by simp
      foreign := by simp
      failed := by simp
      failing := fun _ mem => .inl (kept mem)
      began := by simp
      touched := by simp }

theorem step_seen (h : Sound r) (thread : Nat) (move : BoundaryMove) :
    Seen r (r.step thread move) := by
  unfold step
  split
  · exact proceed_seen h thread
  · exact callbackReturns_seen h thread _
  split
  · exact .same rfl rfl
  split
  · refine .same ?_ ?_
    all_goals
      unfold registerOwner
      split
      · rfl
      · rfl
  · refine .same ?_ ?_
    all_goals
      unfold noteOwnedPresent
      repeat' split
      all_goals rfl
  · exact present_seen h thread _
  · exact acquire_seen r _
  · exact close_seen r _
  · exact release_seen r thread _
  · exact .same rfl rfl

end RenderBoundary

theorem boundaryAfter_concat (moves : List (Nat × BoundaryMove)) (thread : Nat)
    (move : BoundaryMove) :
    boundaryAfter (moves ++ [(thread, move)]) =
      (((boundaryAfter moves).1.step thread move).1,
        (boundaryAfter moves).2 ++ ((boundaryAfter moves).1.step thread move).2) :=
  Lib.traced_concat _ _ moves (thread, move)

def Lawful (moves : List (Nat × BoundaryMove)) : Prop :=
  ∀ before thread move after, moves = before ++ (thread, move) :: after →
    Serialized (boundaryAfter before).1 (boundaryAfter before).2 move

variable {moves : List (Nat × BoundaryMove)}

theorem Lawful.front {more : List (Nat × BoundaryMove)} (lawful : Lawful (moves ++ more)) :
    Lawful moves := by
  intro before thread move after split'
  apply lawful before thread move (after ++ more)
  rw [split']
  simp

variable {move : BoundaryMove}

theorem Lawful.concat (lawful : Lawful moves) (thread : Nat)
    (serialized : Serialized (boundaryAfter moves).1 (boundaryAfter moves).2 move) :
    Lawful (moves ++ [(thread, move)]) := by
  intro before t other after isSplit
  rcases List.eq_nil_or_concat after with rfl | ⟨rest, last, rfl⟩
  · obtain ⟨rfl, isLast⟩ := List.append_inj' isSplit rfl
    cases isLast
    exact serialized
  · rw [List.concat_eq_append, ← List.cons_append, ← List.append_assoc] at isSplit
    exact lawful before t other rest (List.append_inj' isSplit rfl).1

structure LeaseLogged (r : RenderBoundary) (log : List BoundaryEvent) (l : Nat) (lease : Lease) :
    Prop where
  freed : log.count (.freed l) = lease.freed
  released : .released l true ∈ log ↔ .freed l ∈ log
  closed : .closed l true ∈ log → lease.admitted = false ∧ lease.active = 0
  foreign : ∀ t, .foreign t l ∈ log → lease.admitted = false
  failed : ∀ t, .returned t l true ∈ log → lease.admitted = false ∨ ∃ u, .failing l ∈ r.stackOf u

structure Logged (r : RenderBoundary) (log : List BoundaryEvent) : Prop where
  sound : r.Sound
  known : ∀ e ∈ log, e.about < r.leases.length
  lease : ∀ l lease, r.leases[l]? = some lease → LeaseLogged r log l lease

variable {r : RenderBoundary} {log : List BoundaryEvent} {l : Nat} {lease : Lease}

theorem LeaseLogged.step {r' : RenderBoundary} {events : List BoundaryEvent} {lease' : Lease}
    (h : LeaseLogged r log l lease) (effect : r.Effect r' events l lease lease') :
    LeaseLogged r' (log ++ events) l lease' where
  freed := by rw [List.count_append, h.freed, effect.freed]
  released := by rw [List.mem_append, List.mem_append, h.released, effect.released]
  closed := by
    intro mem
    rcases List.mem_append.mp mem with old | new
    · obtain ⟨closed, idle⟩ := h.closed old
      obtain ⟨closed', low⟩ := effect.admitted closed
      exact ⟨closed', by omega⟩
    · exact effect.closed new
  foreign := by
    intro t mem
    rcases List.mem_append.mp mem with old | new
    · exact (effect.admitted (h.foreign t old)).1
    · exact effect.foreign t new
  failed := by
    intro t mem
    rcases List.mem_append.mp mem with old | new
    · rcases h.failed t old with closed | ⟨u, failing⟩
      · exact .inl (effect.admitted closed).1
      · rcases effect.failing u failing with still | closed
        · exact .inr ⟨u, still⟩
        · exact .inl closed
    · exact effect.failed t new

theorem Logged.owned (h : Logged r log) (serialized : Serialized r log move)
    (uses : move.uses = some l) (found : r.leases[l]? = some lease) : lease.owned = true := by
  obtain ⟨unreleased, free⟩ := serialized l uses
  cases owned : lease.owned with
  | true => rfl
  | false =>
    have logged := h.lease l lease found
    rcases (h.sound.lease l lease found).gone owned with ⟨one, _⟩ | ⟨_, t, one, _⟩
    · have mem : .freed l ∈ log := List.count_pos_iff.mp (by rw [logged.freed]; omega)
      exact absurd (logged.released.mpr mem) unreleased
    · exact absurd (List.count_pos_iff.mp (by omega)) (free t)

theorem Logged.step (h : Logged r log) (thread : Nat) (serialized : Serialized r log move) :
    Logged (r.step thread move).1 (log ++ (r.step thread move).2) := by
  have seen := RenderBoundary.step_seen h.sound thread move
  refine ⟨?_, ?_, ?_⟩
  · apply h.sound.step
    intro l lease isRelease found
    exact h.owned serialized (by rw [isRelease]; rfl) found
  · intro e mem
    rcases List.mem_append.mp mem with old | new
    · exact Nat.lt_of_lt_of_le (h.known e old) seen.longer
    · exact seen.known e new
  · intro l lease' found
    rcases Nat.lt_or_ge l r.leases.length with small | large
    · obtain ⟨lease, isLease⟩ : ∃ lease, r.leases[l]? = some lease :=
        ⟨_, List.getElem?_eq_getElem small⟩
      obtain ⟨other, isOther, effect⟩ := seen.kept l lease isLease
      rw [isOther] at found
      cases found
      exact (h.lease l lease isLease).step effect
    · obtain ⟨rfl, acquired⟩ := seen.added l lease' large found
      have unseen {e : BoundaryEvent} (isAbout : e.about = l) (other : e ≠ .acquired l) :
          e ∉ log ++ (r.step thread move).2 := by
        intro mem
        rcases List.mem_append.mp mem with old | new
        · have := h.known e old
          omega
        · exact other (acquired e new)
      exact {
        freed := List.count_eq_zero_of_not_mem (unseen rfl nofun)
        released := ⟨fun mem => absurd mem (unseen rfl nofun), fun mem => absurd mem (unseen rfl nofun)⟩
        closed := fun mem => absurd mem (unseen rfl nofun)
        foreign := fun _ mem => absurd mem (unseen rfl nofun)
        failed := fun _ mem => absurd mem (unseen rfl nofun) }

theorem Logged.effect (h : Logged r log) (thread : Nat) {e : BoundaryEvent}
    (mem : e ∈ (r.step thread move).2) (other : ∀ l, e ≠ .acquired l) :
    ∃ lease lease', r.leases[e.about]? = some lease ∧
      r.Effect (r.step thread move).1 (r.step thread move).2 e.about lease lease' := by
  have seen := RenderBoundary.step_seen h.sound thread move
  rcases Nat.lt_or_ge e.about r.leases.length with small | large
  · have found := List.getElem?_eq_getElem small
    obtain ⟨lease', _, effect⟩ := seen.kept e.about _ found
    exact ⟨_, lease', found, effect⟩
  · have found := List.getElem?_eq_getElem (seen.known e mem)
    exact absurd ((seen.added e.about _ large found).2 e mem) (other _)

theorem Logged.past (h : Logged r log) (found : r.leases[l]? = some lease)
    (past : .closed l true ∈ log ∨ .released l true ∈ log) :
    lease.admitted = false ∧ lease.active = 0 := by
  have logged := h.lease l lease found
  rcases past with closed | released
  · exact logged.closed closed
  · have pos := List.count_pos_iff.mpr (logged.released.mp released)
    rw [logged.freed] at pos
    have sound := h.sound.lease l lease found
    apply sound.passed
    cases owned : lease.owned with
    | false => rfl
    | true =>
      have := (sound.kept owned).1
      omega

theorem Logged.revoked (h : Logged r log) {t : Nat} (found : r.leases[l]? = some lease)
    (why : .foreign t l ∈ log ∨ .returned t l true ∈ log) :
    lease.admitted = false ∨ lease.active ≠ 0 := by
  have logged := h.lease l lease found
  rcases why with foreign | failed
  · exact .inl (logged.foreign t foreign)
  · rcases logged.failed t failed with closed | ⟨u, failing⟩
    · exact .inl closed
    · refine .inr ?_
      have some' : (r.stackOf u).countP (Frame.inside l) ≠ 0 := by
        have pos : 0 < (r.stackOf u).countP (Frame.inside l) :=
          List.countP_pos_iff.mpr ⟨_, failing, beq_self_eq_true l⟩
        omega
      rw [(h.sound.lease l lease found).active, RenderBoundary.insideCount,
        h.sound.frames u l some']
      exact some'

theorem Logged.outside (h : Logged r log) (found : r.leases[l]? = some lease)
    (idle : lease.active = 0) (u : Nat) : ∀ f ∈ r.stackOf u, f.inside l = false := by
  have zero : (r.stackOf u).countP (Frame.inside l) = 0 := by
    by_contra nonzero
    have active := (h.sound.lease l lease found).active
    rw [RenderBoundary.insideCount, h.sound.frames u l nonzero, idle] at active
    exact nonzero active.symm
  intro f mem
  rw [List.countP_eq_zero] at zero
  simpa using zero f mem

theorem Logged.freed_le_one (h : Logged r log) (l : Nat) : log.count (.freed l) ≤ 1 := by
  rcases Nat.lt_or_ge l r.leases.length with small | large
  · have found := List.getElem?_eq_getElem small
    have sound := h.sound.lease l _ found
    rw [(h.lease l _ found).freed]
    cases owned : (r.leases[l]).owned with
    | true =>
      have := (sound.kept owned).1
      omega
    | false =>
      rcases sound.gone owned with ⟨one, _⟩ | ⟨zero, _⟩
      · omega
      · omega
  · rw [List.count_eq_zero_of_not_mem]
    · exact Nat.zero_le _
    · intro mem
      have small : l < r.leases.length := h.known _ mem
      omega

theorem Logged.after (lawful : Lawful moves) :
    Logged (boundaryAfter moves).1 (boundaryAfter moves).2 := by
  induction moves using List.reverseRecOn with
  | nil => exact ⟨.init, nofun, nofun⟩
  | append_singleton moves move ih =>
    rw [boundaryAfter_concat]
    exact (ih lawful.front).step move.1 (lawful moves move.1 move.2 [] rfl)

theorem Lawful.later {before after : List (Nat × BoundaryMove)} (lawful : Lawful (before ++ after))
    {e : BoundaryEvent} (mem : e ∈ boundaryEvents before after) :
    ∃ r log thread move, Logged r log ∧ (∀ e ∈ (boundaryAfter before).2, e ∈ log) ∧
      e ∈ (RenderBoundary.step r thread move).2 := by
  obtain ⟨between, move, rest, rfl, said⟩ := Lib.exists_of_mem_saidAfter _ _ mem
  rw [← List.append_assoc] at lawful
  exact ⟨_, _, move.1, move.2, .after lawful.front,
    fun _ old => Lib.mem_traced_append _ _ old between, said⟩

/-- The lease is out: acquired, and no release of it went through. -/
def Held (r : RenderBoundary) (l : Nat) : Prop := ∃ lease, r.leases[l]? = some lease ∧ lease.owned

def Outside (r : RenderBoundary) (l : Nat) : Prop := ∀ u, ∀ f ∈ r.stackOf u, f.inside l = false

/-- The last move is a Present of the owner's device while the lease is out, of a thread
other than the recorded one. -/
def Strays (moves : List (Nat × BoundaryMove)) (t l : Nat) : Prop :=
  ∃ earlier u, moves = earlier ++ [(t, BoundaryMove.present true)] ∧ (boundaryAfter earlier).1.free t = true ∧
    (boundaryAfter earlier).1.renderThread = some u ∧ u ≠ t ∧ Held (boundaryAfter earlier).1 l

theorem Strays.foreign {t l : Nat} (lawful : Lawful moves) (strays : Strays moves t l) :
    .foreign t l ∈ (boundaryAfter moves).2 := by
  obtain ⟨earlier, u, rfl, free, isRender, other, lease, found, owned⟩ := strays
  have sound := (Logged.after lawful.front).sound
  have held := (sound.lease l lease found).held.mp owned
  have owner : (boundaryAfter earlier).1.owner = true := by
    by_contra none_
    rw [sound.unrecorded (Bool.not_eq_true _ ▸ none_)] at isRender
    cases isRender
  rw [boundaryAfter_concat]
  refine List.mem_append_right _ ?_
  simp [RenderBoundary.step, RenderBoundary.present, free, owner, isRender, held, other]

/-- In every interleaving whose callers keep to the header: at most one lease is out;
the callback runs on the recorded thread and not within itself; after a close or a
release that went through it neither runs nor begins; a lease is deleted once, by
its release, and no Present touches it from then on; and neither after a Present of
another thread nor after a failure does the callback begin again. -/
theorem callback_never_outlives_lease (before after : List (Nat × BoundaryMove))
    (lawful : Lawful (before ++ after)) :
    (∀ l m, Held (boundaryAfter before).1 l → Held (boundaryAfter before).1 m → l = m) ∧
    (∀ u l, .callback l ∈ (boundaryAfter before).1.stackOf u →
      (boundaryAfter before).1.renderThread = some u) ∧
    (∀ thread move t l, .began t l ∈ ((boundaryAfter before).1.step thread move).2 →
      (boundaryAfter before).1.renderThread = some t ∧ Outside (boundaryAfter before).1 l) ∧
    (∀ l, .closed l true ∈ (boundaryAfter before).2 ∨ .released l true ∈ (boundaryAfter before).2 →
      Outside (boundaryAfter before).1 l ∧ ∀ t, .began t l ∉ boundaryEvents before after) ∧
    (∀ l, (boundaryAfter before).2.count (.freed l) ≤ 1 ∧
      (.released l true ∈ (boundaryAfter before).2 →
        (boundaryAfter before).2.count (.freed l) = 1) ∧
      (.freed l ∈ (boundaryAfter before).2 → ∀ t, .touched t l ∉ boundaryEvents before after)) ∧
    ∀ t l, .foreign t l ∈ (boundaryAfter before).2 ∨ .returned t l true ∈ (boundaryAfter before).2 ∨
      Strays before t l → ∀ u, .began u l ∉ boundaryEvents before after := by
  have h := Logged.after lawful.front
  refine ⟨?_, ?_, ?_, ?_, ?_, ?_⟩
  · rintro l m ⟨lease, found, owned⟩ ⟨lease', found', owned'⟩
    have held := (h.sound.lease l lease found).held.mp owned
    rw [(h.sound.lease m lease' found').held.mp owned'] at held
    exact (Option.some.inj held).symm
  · intro u l mem
    have pos : 0 < ((boundaryAfter before).1.stackOf u).countP (Frame.inside l) :=
      List.countP_pos_iff.mpr ⟨_, mem, beq_self_eq_true l⟩
    exact h.sound.frames u l (by omega)
  · intro thread move t l mem
    obtain ⟨lease, _, found, effect⟩ := h.effect thread mem nofun
    obtain ⟨_, idle, isRender⟩ := effect.began t mem
    exact ⟨isRender, h.outside found idle⟩
  · intro l past
    refine ⟨?_, fun t mem => ?_⟩
    · have small : l < (boundaryAfter before).1.leases.length := by
        rcases past with closed | released
        · exact h.known _ closed
        · exact h.known _ released
      have found := List.getElem?_eq_getElem small
      exact h.outside found (h.past found past).2
    · obtain ⟨r, log, thread, move, h', said, mem⟩ := lawful.later mem
      obtain ⟨lease, _, found, effect⟩ := h'.effect thread mem nofun
      have closed := (h'.past found (past.imp (said _) (said _))).1
      rw [(effect.began t mem).1] at closed
      cases closed
  · intro l
    refine ⟨h.freed_le_one l, fun released => ?_, ?_⟩
    · have small : l < (boundaryAfter before).1.leases.length := h.known _ released
      have logged := h.lease l _ (List.getElem?_eq_getElem small)
      have pos := List.count_pos_iff.mpr (logged.released.mp released)
      have := h.freed_le_one l
      omega
    · intro freed t mem
      obtain ⟨r, log, thread, move, h', said, mem⟩ := lawful.later mem
      obtain ⟨lease, _, found, effect⟩ := h'.effect thread mem nofun
      have owned := effect.touched t mem
      have kept := ((h'.sound.lease l lease found).kept owned).1
      have pos := List.count_pos_iff.mpr (said _ freed)
      rw [(h'.lease l lease found).freed] at pos
      omega
  · intro t l why u mem
    have why : .foreign t l ∈ (boundaryAfter before).2 ∨ .returned t l true ∈ (boundaryAfter before).2 := by
      rcases why with foreign | failed | strays
      · exact .inl foreign
      · exact .inr failed
      · exact .inl (strays.foreign lawful.front)
    obtain ⟨r, log, thread, move, h', said, mem⟩ := lawful.later mem
    obtain ⟨lease, _, found, effect⟩ := h'.effect thread mem nofun
    obtain ⟨isAdmitted, idle, _⟩ := effect.began u mem
    rcases h'.revoked found (why.imp (said _) (said _)) with closed | active
    · rw [isAdmitted] at closed
      cases closed
    · exact active idle

/-- A callback that fails on thread 5, and its lease released by thread 1. -/
def failedOnce : List (Nat × BoundaryMove) :=
  [(5, .noteOwnedPresent true), (1, .registerOwner true), (1, .acquire true), (5, .present true),
    (5, .callbackReturns true), (5, .proceed), (5, .proceed)]

theorem failedOnce_lawful :
    Lawful (failedOnce ++ [(1, BoundaryMove.release 0)] ++ [(1, BoundaryMove.proceed)] ++
      [(5, BoundaryMove.present true)]) := by
  have unused : Lawful failedOnce := by
    intro before thread move after isSplit l uses
    have mem : (thread, move) ∈ failedOnce := by
      rw [isSplit]
      simp
    simp only [failedOnce, List.mem_cons, Prod.mk.injEq, List.not_mem_nil, or_false] at mem
    rcases mem with ⟨_, rfl⟩ | ⟨_, rfl⟩ | ⟨_, rfl⟩ | ⟨_, rfl⟩ | ⟨_, rfl⟩ | ⟨_, rfl⟩ | ⟨_, rfl⟩
    all_goals cases uses
  refine ((unused.concat 1 ?_).concat 1 (fun _ uses => by cases uses)).concat 5
    (fun _ uses => by cases uses)
  intro l uses
  cases uses
  refine ⟨by decide +kernel, fun t => ?_⟩
  by_cases mine : t = 5
  · subst mine
    decide +kernel
  · have empty : (boundaryAfter failedOnce).1.stackOf t = [] := by
      simp [failedOnce, boundaryAfter, Lib.traced, RenderBoundary.step, RenderBoundary.free,
        RenderBoundary.noteOwnedPresent, RenderBoundary.registerOwner, RenderBoundary.acquire,
        RenderBoundary.present, RenderBoundary.callbackReturns, RenderBoundary.proceed,
        RenderBoundary.setStack, RenderBoundary.change, mine]
    rw [empty]
    exact List.not_mem_nil

theorem callback_never_outlives_lease_failedOnce :
    .returned 5 0 true ∈ (boundaryAfter (failedOnce ++ [(1, BoundaryMove.release 0)] ++
        [(1, BoundaryMove.proceed)])).2 ∧
      (boundaryAfter (failedOnce ++ [(1, BoundaryMove.release 0)] ++
        [(1, BoundaryMove.proceed)])).2.count (.freed 0) = 1 := by
  obtain ⟨_, _, _, _, freed, _⟩ := callback_never_outlives_lease
    (failedOnce ++ [(1, BoundaryMove.release 0)] ++ [(1, BoundaryMove.proceed)]) [(5, .present true)] failedOnce_lawful
  exact ⟨by decide +kernel, (freed 0).2.1 (by decide +kernel)⟩

end EdvrPatch.Boundary
