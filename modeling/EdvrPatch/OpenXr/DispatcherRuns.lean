import EdvrPatch.OpenXr.RenderThreadDispatcher

/-! Graphics jobs stay inside the boundary they were asked for in. The owner waits for its job, so
the boundary cannot end before it; once it runs the render thread alone has it, and until then a
`close` may take it away. -/
namespace EdvrPatch.OpenXr

open Lib

/-- Read off the record: the render thread, the boundary the owner is in, that of each
job, the job an `invoke` waits for, the jobs that have begun, have ended and how, and were
cancelled, and the boundaries whose `invokeOwner` has returned. -/
structure DispatchView where
  render : Option Nat := none
  inside : Option Nat := none
  boundaryOf : Nat → Option Nat := fun _ => none
  waiting : Option Nat := none
  begun : List Nat := []
  ended : List (Nat × Bool) := []
  cancelled : List Nat := []
  returned : List Nat := []

/-- One boundary at a time, none of them after its `invokeOwner` has returned, and an
`invokeOwner` returns in none. A job runs on the render thread, once, in the boundary it
was accepted in, which does not end while an `invoke` waits; it is cancelled only if it
has not begun; and `invoke` returns after the one or the other, with true exactly for a
job that has ended well. -/
def dispatchProtocol : Monitor DispatchView DispatchEvent where
  advance v
    | .bound thread => { v with render := some thread }
    | .boundaryBegan b => { v with inside := some b }
    | .boundaryEnded _ _ => { v with inside := none }
    | .ownerRefused _ => v
    | .ownerReturned _ b _ => { v with returned := b :: v.returned }
    | .refused _ => v
    | .jobAccepted b j =>
      { v with boundaryOf := Function.update v.boundaryOf j (some b), waiting := some j }
    | .jobBegan _ j => { v with begun := j :: v.begun }
    | .jobEnded j success => { v with ended := (j, success) :: v.ended }
    | .jobCancelled j => { v with cancelled := j :: v.cancelled }
    | .invokeReturned _ _ => { v with waiting := none }
    | .closeReturned _ => v
  allows v
    | .bound _ => v.render = none
    | .boundaryBegan b => v.inside = none ∧ b ∉ v.returned
    | .boundaryEnded b _ => v.inside = some b ∧ v.waiting = none
    | .ownerRefused _ => True
    | .ownerReturned _ b _ => v.inside = none ∧ b ∉ v.returned
    | .refused _ => True
    | .jobAccepted b j => v.inside = some b ∧ v.waiting = none ∧ v.boundaryOf j = none
    | .jobBegan thread j => v.render = some thread ∧ v.inside.isSome ∧ v.boundaryOf j = v.inside ∧
        v.waiting = some j ∧ j ∉ v.begun ∧ j ∉ v.cancelled
    | .jobEnded j _ => v.inside.isSome ∧ v.boundaryOf j = v.inside ∧ v.waiting = some j ∧ j ∈ v.begun ∧
        ∀ success, (j, success) ∉ v.ended
    | .jobCancelled j => v.waiting = some j ∧ j ∉ v.begun ∧ j ∉ v.cancelled
    | .invokeReturned j result => v.waiting = some j ∧
        ((∃ success, (j, success) ∈ v.ended) ∨ j ∈ v.cancelled) ∧ (result = true ↔ (j, true) ∈ v.ended)
    | .closeReturned _ => True

def Life.isOpen : Life → Bool
  | .outside | .finished _ => false
  | _ => true

def DispatchBase.holds : DispatchBase → Option (Nat × Life)
  | .entering b => some (b, .claimed)
  | .inBoundary b => some (b, .begun)
  | .leaving b success => some (b, .ended success)
  | _ => none

def DispatchBase.boundary : DispatchBase → Option Nat
  | .submitting b | .rejected b | .waitingOwner b | .jobClaimed b _ | .jobRunning b _ | .jobRan b _ _ => some b
  | _ => none

namespace RenderThreadDispatcher

structure Linked (s : RenderThreadDispatcher) (v : DispatchView) : Prop where
  render : v.render = s.renderThread
  unbound : s.renderThread = none → s.boundary = none
  executing : ∀ b, (s.boundaries b).ownerExecuting = true ↔ v.inside = some b
  begun : ∀ b, s.life b = .begun ↔ v.inside = some b
  current : ∀ b, (s.life b).isOpen = true → s.boundary = some b
  done : ∀ b, (s.boundaries b).done = true → ∃ success, s.life b = .finished success
  made : ∀ b, s.madeBoundaries ≤ b → s.life b = .outside ∧ b ∉ v.returned
  returned : ∀ b ∈ v.returned, s.boundary ≠ some b
  recent : ∀ b, s.boundary = some b → b < s.madeBoundaries
  graphics : ∀ j, s.graphics = some j → v.waiting = some j ∧ j ∉ v.cancelled ∧ (s.jobs j).done = false ∧
    ((s.jobs j).running = false → j ∉ v.begun)
  waiting : ∀ j, v.waiting = some j → j < s.madeJobs ∧ v.inside.isSome ∧ v.boundaryOf j = v.inside
  fresh : ∀ j, s.madeJobs ≤ j → v.boundaryOf j = none ∧ j ∉ v.begun ∧ j ∉ v.cancelled
  jobs : ∀ j, (s.jobs j).done = true → ((∃ success, (j, success) ∈ v.ended) ∨ j ∈ v.cancelled) ∧
    ((s.jobs j).success = true ↔ (j, true) ∈ v.ended)
  ended : ∀ p ∈ v.ended, p.1 ∈ v.begun
  apart : ∀ j ∈ v.cancelled, j ∉ v.begun

def Phase (s : RenderThreadDispatcher) (v : DispatchView) : DispatchBase → Prop
  | .submitting b | .rejected b => s.life b = .outside
  | .waitingOwner _ => ∀ j, s.graphics = some j → (s.jobs j).running = false
  | .jobClaimed _ j => s.graphics = some j ∧ (s.jobs j).running = true ∧ j ∉ v.begun
  | .jobRunning _ j => s.graphics = some j ∧ (s.jobs j).running = true ∧ j ∈ v.begun ∧
      ∀ success, (j, success) ∉ v.ended
  | .jobRan _ j success => s.graphics = some j ∧ (s.jobs j).running = true ∧
      ∀ x, (j, x) ∈ v.ended ↔ x = success
  | .cancelling b => s.life b = .cancelled ∨ s.life b = .finished false
  | .closing j => j ∈ v.cancelled
  | _ => True

structure Held (s : RenderThreadDispatcher) (v : DispatchView) (thread : Nat) (task : DispatchTask) : Prop where
  own : thread = s.owner → (∀ b l, l.isActive = true → (s.life b = l ↔ task.base.holds = some (b, l))) ∧
    v.waiting = task.job
  foreign : thread ≠ s.owner → task.base.holds = none ∧ task.job = none
  render : s.renderThread = some thread → s.boundary = task.base.boundary
  other : s.renderThread ≠ some thread → task.base.boundary = none
  phase : s.Phase v task.base

structure Beside (thread : Nat) (s : RenderThreadDispatcher) (v : DispatchView) (s' : RenderThreadDispatcher)
    (v' : DispatchView) : Prop where
  owner : s'.owner = s.owner
  active : thread ≠ s.owner →
    (∀ b l, l.isActive = true → (s'.life b = l ↔ s.life b = l)) ∧ v'.waiting = v.waiting
  bound : s'.renderThread = s.renderThread ∨ s.renderThread = none ∧ s'.renderThread = some thread
  render : s.renderThread ≠ some thread → s'.boundary = s.boundary ∧ v'.begun = v.begun ∧ v'.ended = v.ended ∧
    (∀ j, s.graphics = some j → (s.jobs j).running = true → s'.graphics = some j ∧ (s'.jobs j).running = true) ∧
    (∀ j, s'.graphics = some j → (s'.jobs j).running = true →
      s.graphics = some j ∧ (s.jobs j).running = true) ∧
    ∀ b, s.life b = .outside → s'.life b = .outside
  cancelled : ∀ j ∈ v.cancelled, j ∈ v'.cancelled
  dropped : ∀ b, s.life b = .cancelled ∨ s.life b = .finished false →
    s'.life b = .cancelled ∨ s'.life b = .finished false

variable {s s' : RenderThreadDispatcher} {v v' : DispatchView} {thread b j : Nat} {task : DispatchTask}
  {base : DispatchBase}

theorem Beside.refl (thread : Nat) (s : RenderThreadDispatcher) (v : DispatchView) : Beside thread s v s v :=
  ⟨rfl, fun _ => ⟨fun _ _ _ => Iff.rfl, rfl⟩, .inl rfl,
    fun _ => ⟨rfl, rfl, rfl, fun _ is on => ⟨is, on⟩, fun _ is on => ⟨is, on⟩, fun _ out => out⟩, fun _ mem => mem,
    fun _ is => is⟩

theorem Held.beside (beside : Beside thread s v s' v') {u : Nat} (apart : u ≠ thread) (held : s.Held v u task) :
    s'.Held v' u task := by
  have boundThen : s'.renderThread = some u ↔ s.renderThread = some u := by
    rcases beside.bound with same | ⟨free, isThread⟩
    · rw [same]
    · rw [free, isThread]
      exact ⟨fun is => absurd (Option.some.inj is).symm apart, nofun⟩
  have notThread : s.renderThread = some u → s.renderThread ≠ some thread := by
    intro is other
    exact apart (Option.some.inj (is.symm.trans other))
  refine ⟨fun isOwner => ?_, fun foreign => held.foreign fun isOwner => foreign (isOwner.trans beside.owner.symm),
    fun isRender => ?_, fun other => held.other fun is => other (boundThen.mpr is), ?_⟩
  · have isOwner : u = s.owner := isOwner.trans beside.owner
    obtain ⟨active, waiting⟩ := beside.active fun same => apart (isOwner.trans same.symm)
    obtain ⟨lives, job⟩ := held.own isOwner
    exact ⟨fun b l isActive => (active b l isActive).trans (lives b l isActive), waiting.trans job⟩
  · have before := boundThen.mp isRender
    exact (beside.render (notThread before)).1.trans (held.render before)
  · -- a thread in an `invokeOwner` is the render thread
    have mine : ∀ b, task.base.boundary = some b → s.renderThread = some u := by
      intro b isBoundary
      by_contra other
      rw [held.other other] at isBoundary
      cases isBoundary
    have phase := held.phase
    obtain ⟨base, job⟩ := task
    cases base with
    | submitting b => exact (beside.render (notThread (mine b rfl))).2.2.2.2.2 b phase
    | rejected b => exact (beside.render (notThread (mine b rfl))).2.2.2.2.2 b phase
    | waitingOwner b =>
      intro j isGraphics
      by_contra on
      obtain ⟨before, running⟩ :=
        (beside.render (notThread (mine b rfl))).2.2.2.2.1 j isGraphics (by simpa using on)
      rw [phase j before] at running
      cases running
    | jobClaimed b j =>
      obtain ⟨_, begun, _, keeps, _⟩ := beside.render (notThread (mine b rfl))
      obtain ⟨isGraphics, running⟩ := keeps j phase.1 phase.2.1
      exact ⟨isGraphics, running, begun ▸ phase.2.2⟩
    | jobRunning b j =>
      obtain ⟨_, begun, ended, keeps, _⟩ := beside.render (notThread (mine b rfl))
      obtain ⟨isGraphics, running⟩ := keeps j phase.1 phase.2.1
      exact ⟨isGraphics, running, begun ▸ phase.2.2.1, ended ▸ phase.2.2.2⟩
    | jobRan b j success =>
      obtain ⟨_, _, ended, keeps, _⟩ := beside.render (notThread (mine b rfl))
      obtain ⟨isGraphics, running⟩ := keeps j phase.1 phase.2.1
      exact ⟨isGraphics, running, ended ▸ phase.2.2⟩
    | cancelling b => exact beside.dropped b phase
    | closing j => exact beside.cancelled j phase
    | _ => trivial

/-- The outcome of a step is lawful, what it leads to is known again, and the others are
not disturbed. -/
structure Good (s : RenderThreadDispatcher) (v : DispatchView) (thread : Nat)
    (o : RenderThreadDispatcher × DispatchTask × List DispatchEvent) : Prop where
  lawful : dispatchProtocol.Admits v o.2.2
  linked : o.1.Linked (dispatchProtocol.after v o.2.2)
  held : o.1.Held (dispatchProtocol.after v o.2.2) thread o.2.1
  beside : Beside thread s v o.1 (dispatchProtocol.after v o.2.2)

theorem Linked.stays (linked : s.Linked v) (held : s.Held v thread task) : Good s v thread (s, task, []) :=
  ⟨trivial, linked, held, .refl thread s v⟩

theorem life_setLife (s : RenderThreadDispatcher) (b : Nat) (l : Life) (k : Nat) :
    (s.setLife b l).life k = if k = b then l else s.life k :=
  Function.update_apply ..

theorem boundaries_setBoundary (s : RenderThreadDispatcher) (b : Nat) (w : OwnerBoundary) (k : Nat) :
    (s.setBoundary b w).boundaries k = if k = b then w else s.boundaries k :=
  Function.update_apply ..

theorem jobs_setJob (s : RenderThreadDispatcher) (j : Nat) (w : GraphicsJob) (k : Nat) :
    (s.setJob j w).jobs k = if k = j then w else s.jobs k :=
  Function.update_apply ..

variable {l : Life}

theorem Linked.relife (linked : s.Linked v) (known : b < s.madeBoundaries)
    (current : l.isOpen = true → s.boundary = some b) (unbegun : s.life b ≠ .begun)
    (stays : l ≠ .begun)
    (past : (∀ success, s.life b ≠ .finished success) ∨ ∃ success, l = .finished success) :
    (s.setLife b l).Linked v := by
  refine { linked with begun := fun k => ?_, current := fun k isOpen => ?_, done := fun k isDone => ?_, made := fun k le => ?_ }
  · rw [life_setLife]
    split
    · rename_i same
      subst same
      rw [← linked.begun k]
      exact ⟨fun is => absurd is stays, fun is => absurd is unbegun⟩
    · exact linked.begun k
  · rw [life_setLife] at isOpen
    split at isOpen
    · rename_i same
      rw [same]
      exact current isOpen
    · exact linked.current k isOpen
  · obtain ⟨success, isFinished⟩ := linked.done k isDone
    rw [life_setLife]
    split
    · rename_i same
      subst same
      exact past.elim (fun unfinished => absurd isFinished (unfinished success)) id
    · exact ⟨success, isFinished⟩
  · refine ⟨?_, (linked.made k le).2⟩
    rw [life_setLife, if_neg]
    · exact (linked.made k le).1
    · rintro rfl
      exact absurd known (Nat.not_lt_of_le le)

theorem Linked.rebound (linked : s.Linked v) {w : OwnerBoundary}
    (executing : w.ownerExecuting = (s.boundaries b).ownerExecuting)
    (done : w.done = true → ∃ success, s.life b = .finished success) : (s.setBoundary b w).Linked v := by
  refine { linked with executing := fun k => ?_, done := fun k isDone => ?_ }
  · rw [boundaries_setBoundary]
    split
    · rename_i same
      rw [executing, same]
      exact linked.executing b
    · exact linked.executing k
  · rw [boundaries_setBoundary] at isDone
    split at isDone
    · rename_i same
      rw [same]
      exact done isDone
    · exact linked.done k isDone

theorem Linked.known (linked : s.Linked v) (inside : s.life b ≠ .outside) : b < s.madeBoundaries := by
  by_contra le
  exact inside (linked.made b (Nat.le_of_not_lt le)).1

variable {job : Option Nat}

theorem Held.relife (held : s.Held v thread ⟨base, job⟩) {base' : DispatchBase}
    (before : ∀ k m, base.holds = some (k, m) → k = b)
    (after : ∀ k m, m.isActive = true → (base'.holds = some (k, m) ↔ k = b ∧ m = l))
    (foreign : thread ≠ s.owner → base'.holds = none) (boundary : base'.boundary = base.boundary)
    (phase : (s.setLife b l).Phase v base') : (s.setLife b l).Held v thread ⟨base', job⟩ := by
  refine ⟨fun isOwner => ⟨fun k m isActive => ?_, (held.own isOwner).2⟩,
    fun other => ⟨foreign other, (held.foreign other).2⟩, fun isRender => (held.render isRender).trans boundary.symm,
    fun other => boundary.trans (held.other other), phase⟩
  have lives := (held.own isOwner).1
  rw [life_setLife, after k m isActive]
  by_cases same : k = b
  · simp [same, eq_comm]
  · rw [if_neg same, lives k m isActive]
    exact ⟨fun holds => absurd (before k m holds) same, fun both => absurd both.1 same⟩

theorem Beside.relife
    (active : thread ≠ s.owner → (s.life b).isActive = false ∧ l.isActive = false)
    (outside : s.renderThread ≠ some thread → s.life b ≠ .outside)
    (dropped : s.life b = .cancelled ∨ s.life b = .finished false → l = .cancelled ∨ l = .finished false) :
    Beside thread s v (s.setLife b l) v := by
  refine { Beside.refl thread s v with active := fun other => ⟨fun k m isActive => ?_, rfl⟩, render := fun other => ⟨rfl, rfl, rfl, fun _ is on => ⟨is, on⟩, fun _ is on => ⟨is, on⟩, fun k out => ?_⟩, dropped := fun k is => ?_ } <;> rw [life_setLife] <;> split
  · rename_i same
    subst same
    obtain ⟨before, after⟩ := active other
    refine ⟨?_, ?_⟩ <;> rintro rfl
    · rw [after] at isActive
      cases isActive
    · rw [before] at isActive
      cases isActive
  · exact Iff.rfl
  · rename_i same
    exact absurd (same ▸ out) (outside other)
  · exact out
  · rename_i same
    exact dropped (same ▸ is)
  · exact is

theorem Held.life (held : s.Held v thread ⟨base, job⟩) (holds : base.holds = some (b, l))
    (isActive : l.isActive = true) : thread = s.owner ∧ s.life b = l := by
  have isOwner : thread = s.owner := by
    by_contra other
    rw [show base.holds = none from (held.foreign other).1] at holds
    cases holds
  exact ⟨isOwner, ((held.own isOwner).1 b l isActive).mpr holds⟩

theorem Held.inOwner (held : s.Held v thread ⟨base, job⟩) (isBoundary : base.boundary = some b) :
    s.renderThread = some thread ∧ s.boundary = some b := by
  have isRender : s.renderThread = some thread := by
    by_contra other
    rw [show base.boundary = none from held.other other] at isBoundary
    cases isBoundary
  exact ⟨isRender, (held.render isRender).trans isBoundary⟩

theorem Linked.no_graphics (linked : s.Linked v) (isBoundary : s.boundary = some b) (unbegun : s.life b ≠ .begun) :
    s.graphics = none := by
  cases isGraphics : s.graphics with
  | none => rfl
  | some j =>
    obtain ⟨waiting, _⟩ := linked.graphics j isGraphics
    obtain ⟨_, inside, _⟩ := linked.waiting j waiting
    obtain ⟨k, isInside⟩ := Option.isSome_iff_exists.mp inside
    have begun := (linked.begun k).mpr isInside
    have same := linked.current k (by rw [begun]; rfl)
    rw [isBoundary, Option.some.injEq] at same
    exact absurd (same ▸ begun) unbegun

theorem Linked.submits (linked : s.Linked v) (held : s.Held v thread ⟨.submitting b, none⟩) :
    Good s v thread (s.setLife b .queued, ⟨.waitingOwner b, none⟩, []) := by
  obtain ⟨isRender, isBoundary⟩ := held.inOwner rfl
  have out : s.life b = .outside := held.phase
  have free := linked.no_graphics isBoundary (by rw [out]; nofun)
  refine ⟨trivial, linked.relife (linked.recent b isBoundary) (fun _ => isBoundary) (by rw [out]; nofun) nofun
    (.inl (by rw [out]; nofun)), held.relife nofun (fun k m isActive => ⟨nofun, fun both => ?_⟩) (fun _ => rfl) rfl ?_,
    Beside.relife (fun _ => ⟨by rw [out]; rfl, rfl⟩) (fun other => absurd isRender other) (by rw [out]; simp)⟩
  · rw [both.2] at isActive
    cases isActive
  · intro j isGraphics
    rw [show s.graphics = some j from isGraphics] at free
    cases free

theorem Linked.ownerRuns (linked : s.Linked v) (held : s.Held v thread ⟨.idle, none⟩) (isOwner : thread = s.owner)
    (isQueued : s.life b = .queued) : Good s v thread (s.setLife b .claimed, ⟨.entering b, none⟩, []) := by
  have current := linked.current b (by rw [isQueued]; rfl)
  refine ⟨trivial, linked.relife (linked.recent b current) (fun _ => current) (by rw [isQueued]; nofun) nofun
    (.inl (by rw [isQueued]; nofun)), held.relife nofun (fun k m _ => ?_) (fun other => absurd isOwner other) rfl trivial,
    Beside.relife (fun other => absurd isOwner other) (fun _ => by rw [isQueued]; nofun) (by rw [isQueued]; simp)⟩
  simp [DispatchBase.holds, eq_comm]

theorem Linked.serviceCancels (linked : s.Linked v) (held : s.Held v thread ⟨.idle, none⟩)
    (isQueued : s.life b = .queued) : Good s v thread (s.setLife b .cancelled, ⟨.cancelling b, none⟩, []) := by
  have current := linked.current b (by rw [isQueued]; rfl)
  refine ⟨trivial, linked.relife (linked.recent b current) (fun _ => current) (by rw [isQueued]; nofun) nofun
    (.inl (by rw [isQueued]; nofun)), held.relife nofun (fun k m isActive => ⟨nofun, fun both => ?_⟩) (fun _ => rfl) rfl
      (.inl ?_),
    Beside.relife (fun _ => ⟨by rw [isQueued]; rfl, rfl⟩) (fun _ => by rw [isQueued]; nofun) (by rw [isQueued]; simp)⟩
  · rw [both.2] at isActive
    cases isActive
  · rw [life_setLife, if_pos rfl]

theorem Linked.not_inside (linked : s.Linked v) (isBoundary : s.boundary = some b) (unbegun : s.life b ≠ .begun) :
    v.inside = none := by
  cases isInside : v.inside with
  | none => rfl
  | some k =>
    have begun := (linked.begun k).mpr isInside
    have same := linked.current k (by rw [begun]; rfl)
    rw [isBoundary, Option.some.injEq] at same
    exact absurd (same ▸ begun) unbegun

theorem Linked.waiting_none (linked : s.Linked v) (outside : v.inside = none) : v.waiting = none := by
  cases isWaiting : v.waiting with
  | none => rfl
  | some j =>
    have inside := (linked.waiting j isWaiting).2.1
    rw [outside] at inside
    cases inside

theorem Linked.turns (linked : s.Linked v) (current : s.boundary = some b)
    (unfinished : ∀ success, s.life b ≠ .finished success) (idle : v.waiting = none)
    (before : ∀ k ≠ b, v.inside ≠ some k) {w : OwnerBoundary} {now : Option Nat}
    (done : w.done = (s.boundaries b).done) (executing : w.ownerExecuting = true ↔ now = some b)
    (begun : l = .begun ↔ now = some b) (after : ∀ k ≠ b, now ≠ some k) :
    ((s.setBoundary b w).setLife b l).Linked { v with inside := now } := by
  refine { linked with executing := fun k => ?_, begun := fun k => ?_, current := fun k isOpen => ?_, done := fun k isDone => ?_, made := fun k le => ⟨?_, (linked.made k le).2⟩, waiting := fun j isWaiting => ?_ }
  · show ((s.setBoundary b w).boundaries k).ownerExecuting = true ↔ now = some k
    rw [boundaries_setBoundary]
    split
    · rename_i same
      rw [same]
      exact executing
    · rename_i other
      rw [linked.executing k]
      exact ⟨fun is => absurd is (before k other), fun is => absurd is (after k other)⟩
  · show (s.setLife b l).life k = _ ↔ now = some k
    rw [life_setLife]
    split
    · rename_i same
      rw [same]
      exact begun
    · rename_i other
      rw [linked.begun k]
      exact ⟨fun is => absurd is (before k other), fun is => absurd is (after k other)⟩
  · change ((s.setLife b l).life k).isOpen = true at isOpen
    rw [life_setLife] at isOpen
    split at isOpen
    · rename_i same
      rw [same]
      exact current
    · exact linked.current k isOpen
  · change ((s.setBoundary b w).boundaries k).done = true at isDone
    show ∃ success, (s.setLife b l).life k = _
    rw [boundaries_setBoundary] at isDone
    rw [life_setLife]
    split at isDone
    · obtain ⟨success, isFinished⟩ := linked.done b (done.symm.trans isDone)
      exact absurd isFinished (unfinished success)
    · rename_i other
      rw [if_neg other]
      exact linked.done k isDone
  · show (s.setLife b l).life k = _
    rw [life_setLife, if_neg]
    · exact (linked.made k le).1
    · rintro rfl
      exact absurd (linked.recent k current) (Nat.not_lt_of_le le)
  · rw [show v.waiting = some j from isWaiting] at idle
    cases idle

theorem Linked.enter (linked : s.Linked v) (held : s.Held v thread ⟨.entering b, none⟩) :
    Good s v thread ((s.enter b).1, ⟨(s.enter b).2.1, none⟩, (s.enter b).2.2) := by
  obtain ⟨isOwner, isClaimed⟩ := held.life rfl rfl
  have unbegun : s.life b ≠ .begun := by
    rw [isClaimed]
    nofun
  have unfinished : ∀ success, s.life b ≠ .finished success := by
    rw [isClaimed]
    nofun
  have current := linked.current b (by rw [isClaimed]; rfl)
  have only : ∀ k m, DispatchBase.holds (.entering b) = some (k, m) → k = b := by
    simp +contextual [DispatchBase.holds, eq_comm]
  have moved : ∀ l, Beside thread s v (s.setLife b l) v := fun l =>
    Beside.relife (fun other => absurd isOwner other) (fun _ => by rw [isClaimed]; nofun) (by rw [isClaimed]; simp)
  unfold RenderThreadDispatcher.enter
  split
  · have shut : (s.setBoundary b { s.boundaries b with cancelled := true }).Linked v :=
      linked.rebound rfl (linked.done b)
    have held' : (s.setLife b (.ended true)).Held v thread ⟨.leaving b true, none⟩ :=
      held.relife only (fun k m _ => by simp [DispatchBase.holds, eq_comm]) (fun other => absurd isOwner other) rfl
        trivial
    exact ⟨trivial, shut.relife (linked.recent b current) (fun _ => current) unbegun nofun (.inl unfinished),
      { held' with }, { moved (.ended true) with }⟩
  · have outside := linked.not_inside current unbegun
    have idle := linked.waiting_none outside
    have held' : (s.setLife b .begun).Held v thread ⟨.inBoundary b, none⟩ :=
      held.relife only (fun k m _ => by simp [DispatchBase.holds, eq_comm]) (fun other => absurd isOwner other) rfl
        trivial
    refine ⟨⟨⟨outside, fun mem => linked.returned b mem current⟩, trivial⟩,
      linked.turns current unfinished idle (fun k _ => ?_) rfl ⟨fun _ => rfl, fun _ => rfl⟩ ⟨fun _ => rfl, fun _ => rfl⟩
        (fun k other is => other (Option.some.inj is).symm),
      { held' with }, { moved .begun with }⟩
    rw [outside]
    nofun

theorem Linked.leave (linked : s.Linked v) (held : s.Held v thread ⟨.inBoundary b, none⟩) (success : Bool) :
    Good s v thread (s.leave b success, ⟨.leaving b success, none⟩, [.boundaryEnded b success]) := by
  obtain ⟨isOwner, isBegun⟩ := held.life rfl rfl
  have inside := (linked.begun b).mp isBegun
  have idle : v.waiting = none := (held.own isOwner).2
  have current := linked.current b (by rw [isBegun]; rfl)
  have only : ∀ k m, DispatchBase.holds (.inBoundary b) = some (k, m) → k = b := by
    simp +contextual [DispatchBase.holds, eq_comm]
  have held' : (s.setLife b (.ended success)).Held v thread ⟨.leaving b success, none⟩ :=
    held.relife only (fun k m _ => by simp [DispatchBase.holds, eq_comm]) (fun other => absurd isOwner other) rfl
      trivial
  have moved : Beside thread s v (s.setLife b (.ended success)) v :=
    Beside.relife (fun other => absurd isOwner other) (fun _ => by rw [isBegun]; nofun) (by rw [isBegun]; simp)
  refine ⟨⟨⟨inside, idle⟩, trivial⟩,
    linked.turns current (by rw [isBegun]; nofun) idle (fun k other is => ?_) rfl ⟨nofun, nofun⟩ ⟨nofun, nofun⟩ nofun,
    { held' with }, { moved with }⟩
  rw [inside] at is
  exact other (Option.some.inj is).symm

variable {success : Bool}

theorem Linked.complete (linked : s.Linked v) (inside : s.life b ≠ .outside)
    (unbegun : s.life b ≠ .begun) : (s.complete b success).Linked v := by
  have past : (s.setLife b (.finished success)).Linked v :=
    linked.relife (linked.known inside) nofun unbegun nofun (.inr ⟨success, rfl⟩)
  have both : ((s.setLife b (.finished success)).setBoundary b
      { s.boundaries b with success := success && !(s.boundaries b).cancelled, done := true }).Linked v := by
    refine past.rebound rfl fun _ => ⟨success, ?_⟩
    rw [life_setLife, if_pos rfl]
  exact both

theorem Linked.completes (linked : s.Linked v) (held : s.Held v thread ⟨.leaving b success, none⟩) :
    Good s v thread (s.complete b success, ⟨.idle, none⟩, []) := by
  obtain ⟨isOwner, isEnded⟩ := held.life rfl rfl
  have held' : (s.setLife b (.finished success)).Held v thread ⟨.idle, none⟩ := by
    refine held.relife ?_ (fun k m isActive => ⟨nofun, fun both => ?_⟩) (fun _ => rfl) rfl trivial
    · simp +contextual [DispatchBase.holds, eq_comm]
    · rw [both.2] at isActive
      cases isActive
  have moved : Beside thread s v (s.setLife b (.finished success)) v :=
    Beside.relife (fun other => absurd isOwner other) (fun _ => by rw [isEnded]; nofun) (by rw [isEnded]; simp)
  exact ⟨trivial, linked.complete (by rw [isEnded]; nofun) (by rw [isEnded]; nofun), { held' with }, { moved with }⟩

theorem Linked.discards (linked : s.Linked v) (held : s.Held v thread ⟨.cancelling b, none⟩) :
    Good s v thread (s.complete b false, ⟨.idle, none⟩, []) := by
  have dropped : s.life b = .cancelled ∨ s.life b = .finished false := held.phase
  have life : s.life b ≠ .outside ∧ s.life b ≠ .begun ∧ (s.life b).isActive = false := by
    rcases dropped with isLife | isLife <;> rw [isLife] <;> exact ⟨nofun, nofun, rfl⟩
  have held' : (s.setLife b (.finished false)).Held v thread ⟨.idle, none⟩ := by
    refine held.relife nofun (fun k m isActive => ⟨nofun, fun both => ?_⟩) (fun _ => rfl) rfl trivial
    rw [both.2] at isActive
    cases isActive
  have moved : Beside thread s v (s.setLife b (.finished false)) v :=
    Beside.relife (fun _ => ⟨life.2.2, rfl⟩) (fun _ => life.1) fun _ => .inr rfl
  exact ⟨trivial, linked.complete life.1 life.2.1, { held' with }, { moved with }⟩

theorem Held.rebase (held : s.Held v thread ⟨base, job⟩) {base' : DispatchBase}
    (owner : s'.owner = s.owner) (life : s'.life = s.life)
    (render : s'.renderThread = s.renderThread) (waiting : v'.waiting = v.waiting)
    (holds : base'.holds = base.holds)
    (isBoundary : s.renderThread = some thread → s'.boundary = base'.boundary)
    (other : s.renderThread ≠ some thread → base'.boundary = none) (phase : s'.Phase v' base') :
    s'.Held v' thread ⟨base', job⟩ := by
  refine ⟨fun isOwner => ⟨fun k m isActive => ?_, ?_⟩, fun foreign => ?_, fun isRender => isBoundary (render ▸ isRender),
    fun isOther => other (render ▸ isOther), phase⟩
  · dsimp only
    rw [life, holds]
    exact (held.own (isOwner.trans owner)).1 k m isActive
  · rw [waiting]
    exact (held.own (isOwner.trans owner)).2
  · dsimp only
    rw [holds]
    exact held.foreign fun isOwner => foreign (isOwner.trans owner.symm)

theorem Linked.returns (linked : s.Linked v) (held : s.Held v thread ⟨base, none⟩) (inOwner : base.boundary = some b)
    (holds : base.holds = none) (past : (s.life b).isOpen = false) (result : Bool) :
    Good s v thread ({ s with boundary := none }, ⟨.idle, none⟩, [.ownerReturned thread b result]) := by
  obtain ⟨isRender, isBoundary⟩ := held.inOwner inOwner
  have unbegun : s.life b ≠ .begun := by
    intro isLife
    rw [isLife] at past
    cases past
  refine ⟨⟨⟨linked.not_inside isBoundary unbegun, fun mem => linked.returned b mem isBoundary⟩, trivial⟩,
    { linked with unbound := fun _ => rfl, current := fun k isOpen => ?_, made := fun k le => ⟨(linked.made k le).1, fun mem => ?_⟩, returned := nofun, recent := nofun },
    held.rebase rfl rfl rfl rfl holds.symm (fun _ => rfl) (fun _ => rfl) trivial,
    { Beside.refl thread s v with render := fun other => absurd isRender other }⟩
  · have same := linked.current k isOpen
    rw [isBoundary, Option.some.injEq] at same
    rw [show s.life k = s.life b by rw [same], past] at isOpen
    cases isOpen
  · rcases List.mem_cons.mp mem with rfl | old
    · exact absurd (linked.recent k isBoundary) (Nat.not_lt_of_le le)
    · exact (linked.made k le).2 old

theorem Linked.marks (linked : s.Linked v) (isGraphics : s.graphics = some j) :
    (s.setJob j { s.jobs j with running := true }).Linked v := by
  refine { linked with graphics := fun k is => ?_, jobs := fun k isDone => ?_ }
  · have same : k = j := Option.some.inj (is.symm.trans isGraphics)
    subst same
    obtain ⟨waiting, uncancelled, undone, _⟩ := linked.graphics k isGraphics
    rw [jobs_setJob, if_pos rfl]
    exact ⟨waiting, uncancelled, undone, nofun⟩
  · rw [jobs_setJob] at isDone ⊢
    split at isDone
    · rename_i same
      subst same
      rw [if_pos rfl]
      exact linked.jobs k isDone
    · rename_i other
      rw [if_neg other]
      exact linked.jobs k isDone

theorem Linked.nextTurn (linked : s.Linked v) (held : s.Held v thread ⟨.waitingOwner b, none⟩) :
    Good s v thread ((s.nextTurn thread b).1, ⟨(s.nextTurn thread b).2.1, none⟩, (s.nextTurn thread b).2.2) := by
  obtain ⟨isRender, isBoundary⟩ := held.inOwner rfl
  unfold RenderThreadDispatcher.nextTurn
  split
  · rename_i j isGraphics
    obtain ⟨_, _, _, unbegun⟩ := linked.graphics j isGraphics
    refine ⟨trivial, linked.marks isGraphics,
      held.rebase rfl rfl rfl rfl rfl (fun _ => isBoundary) (fun other => absurd isRender other)
        ⟨isGraphics, ?_, unbegun (held.phase j isGraphics)⟩,
      { Beside.refl thread s v with render := fun other => absurd isRender other }⟩
    rw [jobs_setJob, if_pos rfl]
  · split
    · rename_i isDone
      obtain ⟨success, isFinished⟩ := linked.done b isDone
      exact linked.returns held rfl rfl (by rw [isFinished]; rfl) _
    · exact linked.stays held

theorem Linked.out (linked : s.Linked v) (isGraphics : s.graphics = some j) :
    v.inside.isSome ∧ v.boundaryOf j = v.inside ∧ v.waiting = some j := by
  obtain ⟨waiting, _⟩ := linked.graphics j isGraphics
  obtain ⟨_, inside, same⟩ := linked.waiting j waiting
  exact ⟨inside, same, waiting⟩

theorem Linked.jobBegins (linked : s.Linked v) (held : s.Held v thread ⟨.jobClaimed b j, none⟩) :
    Good s v thread (s, ⟨.jobRunning b j, none⟩, [.jobBegan thread j]) := by
  obtain ⟨isRender, isBoundary⟩ := held.inOwner rfl
  obtain ⟨isGraphics, running, unbegun⟩ := held.phase
  obtain ⟨waiting, uncancelled, _, _⟩ := linked.graphics j isGraphics
  obtain ⟨inside, isOf, _⟩ := linked.out isGraphics
  refine ⟨⟨⟨linked.render.trans isRender, inside, isOf, waiting, unbegun, uncancelled⟩, trivial⟩,
    { linked with graphics := fun k is => ?_, fresh := fun k le => ?_, ended := fun p mem => List.mem_cons_of_mem _ (linked.ended p mem), apart := fun k mem => ?_ },
    held.rebase rfl rfl rfl rfl rfl (fun _ => isBoundary) (fun other => absurd isRender other)
      ⟨isGraphics, running, List.mem_cons_self, fun success mem => unbegun (linked.ended _ mem)⟩,
    { Beside.refl thread s v with render := fun other => absurd isRender other }⟩
  · obtain ⟨waiting, uncancelled, undone, _⟩ := linked.graphics k is
    refine ⟨waiting, uncancelled, undone, fun off => ?_⟩
    rw [Option.some.inj (is.symm.trans isGraphics), running] at off
    cases off
  · obtain ⟨isOf, notBegun, notCancelled⟩ := linked.fresh k le
    refine ⟨isOf, fun mem => ?_, notCancelled⟩
    rcases List.mem_cons.mp mem with rfl | old
    · exact absurd (linked.waiting k waiting).1 (Nat.not_lt_of_le le)
    · exact notBegun old
  · intro begun
    rcases List.mem_cons.mp begun with rfl | old
    · exact uncancelled mem
    · exact linked.apart k mem old

theorem Linked.jobEnds (linked : s.Linked v) (held : s.Held v thread ⟨.jobRunning b j, none⟩) (success : Bool) :
    Good s v thread (s, ⟨.jobRan b j success, none⟩, [.jobEnded j success]) := by
  obtain ⟨isRender, isBoundary⟩ := held.inOwner rfl
  obtain ⟨isGraphics, running, isBegun, notEnded⟩ := held.phase
  obtain ⟨_, _, undone, _⟩ := linked.graphics j isGraphics
  obtain ⟨inside, isOf, waiting⟩ := linked.out isGraphics
  refine ⟨⟨⟨inside, isOf, waiting, isBegun, notEnded⟩, trivial⟩,
    { linked with jobs := fun k isDone => ?_, ended := fun p mem => ?_ },
    held.rebase rfl rfl rfl rfl rfl (fun _ => isBoundary) (fun other => absurd isRender other)
      ⟨isGraphics, running, fun x => ?_⟩,
    { Beside.refl thread s v with render := fun other => absurd isRender other }⟩
  · have other : k ≠ j := by
      rintro rfl
      rw [undone] at isDone
      cases isDone
    obtain ⟨reason, result⟩ := linked.jobs k isDone
    refine ⟨reason.imp (fun ⟨x, mem⟩ => ⟨x, List.mem_cons_of_mem _ mem⟩) id, result.trans ?_⟩
    exact ⟨List.mem_cons_of_mem _, fun mem => (List.mem_cons.mp mem).resolve_left fun same => other (Prod.mk.inj same).1⟩
  · rcases List.mem_cons.mp mem with rfl | old
    · exact isBegun
    · exact linked.ended p old
  · refine ⟨fun mem => ?_, fun same => same ▸ List.mem_cons_self⟩
    rcases List.mem_cons.mp mem with same | old
    · exact (Prod.mk.inj same).2
    · exact absurd old (notEnded x)

theorem Linked.finishJob (linked : s.Linked v)
    (held : s.Held v thread ⟨.jobRan b j success, none⟩) :
    Good s v thread (s.finishJob j success, ⟨.waitingOwner b, none⟩, []) := by
  obtain ⟨isRender, isBoundary⟩ := held.inOwner rfl
  obtain ⟨isGraphics, running, isEnded⟩ := held.phase
  refine ⟨trivial, { linked with graphics := nofun, jobs := fun k isDone => ?_ },
    held.rebase rfl rfl rfl rfl rfl (fun _ => isBoundary) (fun other => absurd isRender other) nofun,
    { Beside.refl thread s v with render := fun other => absurd isRender other }⟩
  change ((s.setJob j _).jobs k).done = true at isDone
  show _ ∧ (((s.setJob j _).jobs k).success = true ↔ _)
  rw [jobs_setJob] at isDone ⊢
  by_cases same : k = j
  · subst same
    rw [if_pos rfl]
    exact ⟨.inl ⟨success, (isEnded success).mpr rfl⟩, eq_comm.trans (isEnded true).symm⟩
  · rw [if_neg same] at isDone ⊢
    exact linked.jobs k isDone

theorem Linked.dropsJob (linked : s.Linked v) (held : s.Held v thread ⟨.closing j, none⟩) :
    Good s v thread (s.setJob j { s.jobs j with success := false, done := true }, ⟨.idle, none⟩,
      [.closeReturned thread]) := by
  have isCancelled : j ∈ v.cancelled := held.phase
  have running : ∀ k, ((s.setJob j { s.jobs j with success := false, done := true }).jobs k).running =
      (s.jobs k).running := by
    intro k
    rw [jobs_setJob]
    split
    · rename_i same
      rw [same]
    · rfl
  refine ⟨⟨trivial, trivial⟩, { linked with graphics := fun k is => ?_, jobs := fun k isDone => ?_ },
    held.rebase rfl rfl rfl rfl rfl held.render held.other trivial,
    { Beside.refl thread s v with render := fun _ => ⟨rfl, rfl, rfl, fun k is on => ⟨is, (running k).trans on⟩, fun k is on => ⟨is, (running k).symm.trans on⟩, fun _ out => out⟩ }⟩
  · obtain ⟨waiting, uncancelled, undone, unbegun⟩ := linked.graphics k is
    have other : k ≠ j := by
      rintro rfl
      exact uncancelled isCancelled
    rw [jobs_setJob, if_neg other]
    exact ⟨waiting, uncancelled, undone, unbegun⟩
  · rw [jobs_setJob] at isDone ⊢
    by_cases same : k = j
    · subst same
      rw [if_pos rfl]
      exact ⟨.inr isCancelled, nofun, fun mem => absurd (linked.ended _ mem) (linked.apart k isCancelled)⟩
    · rw [if_neg same] at isDone ⊢
      exact linked.jobs k isDone

theorem Linked.shut (linked : s.Linked v) : s.shut.Linked v := by
  unfold RenderThreadDispatcher.shut
  split
  · rename_i b _
    have marked : (s.setBoundary b { s.boundaries b with cancelled := true }).Linked v :=
      linked.rebound rfl (linked.done b)
    exact { marked with }
  · exact { linked with }

theorem shut_eq (s : RenderThreadDispatcher) :
    s.shut = { s with closed := true, boundaries := s.shut.boundaries } := by
  unfold RenderThreadDispatcher.shut
  split <;> rfl

theorem Linked.close (linked : s.Linked v) (held : s.Held v thread ⟨.idle, none⟩) :
    Good s v thread ((s.close thread).1, ⟨(s.close thread).2.1, none⟩, (s.close thread).2.2) := by
  have shut := linked.shut
  have closes : Good s v thread (s.shut, ⟨.idle, none⟩, [.closeReturned thread]) := by
    rw [shut_eq] at shut ⊢
    exact ⟨⟨trivial, trivial⟩, shut, { held with }, { Beside.refl thread s v with }⟩
  unfold RenderThreadDispatcher.close
  split
  · rename_i j isGraphics
    obtain ⟨waiting, uncancelled, _, unbegun⟩ := linked.graphics j isGraphics
    split
    · exact closes
    · rename_i off
      have notBegun := unbegun (by simpa using off)
      rw [shut_eq] at shut ⊢
      refine ⟨⟨⟨waiting, notBegun, uncancelled⟩, trivial⟩,
        { shut with graphics := nofun, fresh := fun k le => ?_, jobs := fun k isDone => ?_, apart := fun k mem => ?_ },
        held.rebase rfl rfl rfl rfl rfl held.render held.other List.mem_cons_self,
        { Beside.refl thread s v with render := fun _ => ⟨rfl, rfl, rfl, fun k is on => ?_, nofun, fun _ out => out⟩, cancelled := fun k mem => List.mem_cons_of_mem _ mem }⟩
      · obtain ⟨isOf, notBegun, notCancelled⟩ := linked.fresh k le
        refine ⟨isOf, notBegun, fun mem => ?_⟩
        rcases List.mem_cons.mp mem with rfl | old
        · exact absurd (linked.waiting k waiting).1 (Nat.not_lt_of_le le)
        · exact notCancelled old
      · obtain ⟨reason, result⟩ := linked.jobs k isDone
        exact ⟨reason.imp id (List.mem_cons_of_mem _), result⟩
      · rcases List.mem_cons.mp mem with rfl | old
        · exact notBegun
        · exact linked.apart k old
      · rw [Option.some.inj (is.symm.trans isGraphics)] at on
        exact absurd on off
  · exact closes

theorem Linked.refuses (linked : s.Linked v) (held : s.Held v thread task) :
    Good s v thread (s, task, [.refused thread]) :=
  ⟨⟨trivial, trivial⟩, linked, held, .refl thread s v⟩

theorem Linked.invoke (linked : s.Linked v) (held : s.Held v thread ⟨base, none⟩) (user : isUserCode base = true)
    (fine : Bool) : Good s v thread (s.invoke thread ⟨base, none⟩ fine) := by
  unfold RenderThreadDispatcher.invoke
  split
  · exact linked.refuses held
  rename_i b _
  split
  · exact linked.refuses held
  rename_i admitted
  simp only [not_or, Decidable.not_not] at admitted
  obtain ⟨_, isOwner, _, executing, free, _⟩ := admitted
  have inside := (linked.executing b).mp executing
  have idle : v.waiting = none := (held.own isOwner).2
  have noGraphics : s.graphics = none := by simpa using free
  obtain ⟨isOf, notBegun, notCancelled⟩ := linked.fresh s.madeJobs (Nat.le_refl _)
  refine ⟨⟨⟨inside, idle, isOf⟩, trivial⟩,
    { linked with graphics := fun k is => ?_, waiting := fun k is => ?_, fresh := fun k le => ?_, jobs := fun k isDone => ?_ },
    ⟨fun _ => ⟨(held.own isOwner).1, rfl⟩, fun other => absurd isOwner other, held.render, held.other, ?_⟩,
    { Beside.refl thread s v with active := fun other => absurd isOwner other, render := fun _ => ⟨rfl, rfl, rfl, fun k is => ?_, fun k is on => ?_, fun _ out => out⟩ }⟩
  · have same : s.madeJobs = k := Option.some.inj is
    subst same
    refine ⟨rfl, notCancelled, ?_, fun _ => notBegun⟩
    show ((s.setJob s.madeJobs {}).jobs s.madeJobs).done = false
    rw [jobs_setJob, if_pos rfl]
  · have same : s.madeJobs = k := Option.some.inj is
    subst same
    have inIt : v.inside.isSome = true := by
      rw [inside]
      rfl
    refine ⟨Nat.lt_succ_self _, inIt, ?_⟩
    exact (Function.update_self ..).trans inside.symm
  · obtain ⟨isOf, notBegun, notCancelled⟩ := linked.fresh k (Nat.le_of_succ_le le)
    exact ⟨(Function.update_of_ne (Nat.ne_of_gt le) ..).trans isOf, notBegun, notCancelled⟩
  · change ((s.setJob s.madeJobs {}).jobs k).done = true at isDone
    show _ ∧ (((s.setJob s.madeJobs {}).jobs k).success = true ↔ _)
    rw [jobs_setJob] at isDone ⊢
    split at isDone
    · cases isDone
    · rename_i other
      rw [if_neg other]
      exact linked.jobs k isDone
  · have phase := held.phase
    cases base with
    | jobRunning b j =>
      rw [phase.1] at noGraphics
      cases noGraphics
    | cancelling b => exact phase
    | closing j => exact phase
    | idle => trivial
    | inBoundary b => trivial
    | leaving b success => trivial
    | _ => cases user
  · rw [noGraphics] at is
    cases is
  · have same : s.madeJobs = k := Option.some.inj is
    subst same
    rw [jobs_setJob, if_pos rfl] at on
    cases on

theorem Linked.wake (linked : s.Linked v) (held : s.Held v thread ⟨base, some j⟩) :
    Good s v thread (s.wake base j) := by
  have isOwner : thread = s.owner := by
    by_contra other
    cases (held.foreign other).2
  have isWaiting : v.waiting = some j := (held.own isOwner).2
  unfold RenderThreadDispatcher.wake
  split
  · rename_i isDone
    obtain ⟨reason, result⟩ := linked.jobs j isDone
    refine ⟨⟨⟨isWaiting, reason, result⟩, trivial⟩, { linked with graphics := fun k is => ?_, waiting := nofun },
      ⟨fun _ => ⟨(held.own isOwner).1, rfl⟩, fun other => absurd isOwner other, held.render, held.other, held.phase⟩,
      { Beside.refl thread s v with active := fun other => absurd isOwner other }⟩
    obtain ⟨waiting, _, undone, _⟩ := linked.graphics k is
    rw [isWaiting, Option.some.injEq] at waiting
    rw [← waiting, isDone] at undone
    cases undone
  · exact linked.stays held

theorem Linked.invokeOwner (linked : s.Linked v) (held : s.Held v thread ⟨base, none⟩) (fine : Bool) :
    Good s v thread ((s.invokeOwner thread base fine).1, ⟨(s.invokeOwner thread base fine).2.1, none⟩,
      (s.invokeOwner thread base fine).2.2) := by
  unfold RenderThreadDispatcher.invokeOwner
  split
  · exact ⟨⟨trivial, trivial⟩, linked, held, .refl thread s v⟩
  rename_i admitted
  simp only [not_or, Decidable.not_not] at admitted
  obtain ⟨_, foreign, _, free, isRender⟩ := admitted
  have noBoundary : s.boundary = none := by simpa using free
  obtain ⟨out, notReturned⟩ := linked.made s.madeBoundaries (Nat.le_refl _)
  have fresh : (s.setBoundary s.madeBoundaries {}).Linked v := by
    refine linked.rebound ?_ nofun
    cases isExecuting : (s.boundaries s.madeBoundaries).ownerExecuting with
    | false => rfl
    | true =>
      have begun := (linked.begun s.madeBoundaries).mpr ((linked.executing s.madeBoundaries).mp isExecuting)
      rw [out] at begun
      cases begun
  refine ⟨trivial, { fresh with unbound := fun unbound => ?_, current := fun k isOpen => ?_, made := fun k le => linked.made k (Nat.le_of_succ_le le), returned := fun k mem is => ?_, recent := fun k is => ?_ },
    ⟨fun isOwner => absurd isOwner foreign, fun _ => ⟨rfl, rfl⟩, fun _ => rfl, fun other => absurd isRender other, out⟩,
    { Beside.refl thread s v with render := fun other => absurd isRender other }⟩
  · rw [show s.renderThread = none from unbound] at isRender
    cases isRender
  · have isBoundary := linked.current k isOpen
    rw [noBoundary] at isBoundary
    cases isBoundary
  · rw [← Option.some.inj is] at mem
    exact notReturned mem
  · rw [← Option.some.inj is]
    exact Nat.lt_succ_self _

theorem Linked.binds (linked : s.Linked v) (held : s.Held v thread ⟨.idle, none⟩) :
    Good s v thread ((s.bindCurrentThread thread).1, ⟨(s.bindCurrentThread thread).2.1, none⟩,
      (s.bindCurrentThread thread).2.2) := by
  unfold RenderThreadDispatcher.bindCurrentThread
  split
  · exact linked.stays held
  · rename_i free
    have unbound : s.renderThread = none := by
      cases isRender : s.renderThread with
      | none => rfl
      | some t => simp [isRender] at free
    exact ⟨⟨linked.render.trans unbound, trivial⟩,
      { linked with render := rfl, unbound := nofun },
      { held with render := fun _ => linked.unbound unbound, other := fun _ => rfl },
      { Beside.refl thread s v with bound := .inr ⟨unbound, rfl⟩ }⟩

theorem Linked.stepBase (linked : s.Linked v) (held : s.Held v thread ⟨base, none⟩) (move : DispatchMove) :
    Good s v thread ((s.stepBase thread base move).1, ⟨(s.stepBase thread base move).2.1, none⟩,
      (s.stepBase thread base move).2.2) := by
  unfold RenderThreadDispatcher.stepBase
  split
  · exact linked.binds held
  · exact linked.close held
  · split
    · rename_i claims
      exact linked.ownerRuns held claims.1 claims.2
    · exact linked.stays held
  · split
    · rename_i isQueued
      exact linked.serviceCancels held isQueued
    · exact linked.stays held
  · exact linked.invokeOwner held _
  · exact linked.invokeOwner held _
  · exact linked.invokeOwner held _
  · split
    · exact linked.submits held
    · exact ⟨trivial, linked, held.rebase rfl rfl rfl rfl rfl held.render held.other held.phase, .refl thread s v⟩
  · rename_i b
    exact linked.returns held rfl rfl (by rw [show s.life b = _ from held.phase]; rfl) false
  · exact linked.nextTurn held
  · exact linked.jobBegins held
  · exact linked.jobEnds held _
  · exact linked.finishJob held
  · exact linked.enter held
  · exact linked.leave held _
  · exact linked.completes held
  · exact linked.discards held
  · exact linked.dropsJob held
  · exact linked.stays held

theorem Linked.step (linked : s.Linked v) (held : s.Held v thread task) (move : DispatchMove) :
    Good s v thread (s.step thread task move) := by
  obtain ⟨base, job⟩ := task
  unfold RenderThreadDispatcher.step
  split
  · rename_i isJob
    subst isJob
    exact linked.wake held
  · exact linked.stays held
  · rename_i isJob
    subst isJob
    split
    · rename_i user
      exact linked.invoke held user _
    · exact linked.stays held
  · rename_i isJob _
    subst isJob
    exact linked.stepBase held _

end RenderThreadDispatcher

/-- Over every interleaving a job runs in its boundary, once and on the render thread, and
`invoke` and `invokeOwner` return after it and after the boundary. -/
theorem dispatcher_keeps_boundaries (owner : Nat) (moves : List (Nat × DispatchMove)) :
    dispatchProtocol.Admits {} (dispatcherRun owner moves).2 := by
  refine (@Threads.monitored _ _ _ _ RenderThreadDispatcher.step ⟨{ owner := owner }, fun _ => {}⟩ _ dispatchProtocol {}
    RenderThreadDispatcher.Linked RenderThreadDispatcher.Held ?_ ?_ ?_ ?_ moves).1
  · exact ⟨rfl, fun _ => rfl, fun b => ⟨nofun, nofun⟩, fun b => ⟨nofun, nofun⟩, nofun, nofun, fun b _ => ⟨rfl, nofun⟩, nofun,
      nofun, nofun, nofun, fun j _ => ⟨rfl, nofun, nofun⟩, nofun, nofun, nofun⟩
  · refine fun thread => ⟨fun _ => ⟨fun b l isActive => ⟨fun isLife => ?_, nofun⟩, rfl⟩, fun _ => ⟨rfl, rfl⟩, nofun, fun _ => rfl,
      trivial⟩
    rw [← isLife] at isActive
    cases isActive
  · intro s v thread task move linked held
    have good := linked.step held move
    exact ⟨good.lawful, good.linked, good.held⟩
  · intro s v thread task move linked held u other apart theirs
    exact theirs.beside (linked.step held move).beside apart

/-- A job whose callback throws is neither cancelled nor refused, and `invoke` returns
false. -/
theorem thrown_job_returns_false :
    ¬∀ owner moves job, .invokeReturned job false ∈ (dispatcherRun owner moves).2 →
      DispatchEvent.jobCancelled job ∈ (dispatcherRun owner moves).2 := by
  intro cancelled
  have here := cancelled 0 [(1, .bindCurrentThread), (1, .invokeOwner true), (1, .submitted true), (0, .ownerRuns 0),
    (0, .proceed), (0, .invoke true), (1, .proceed), (1, .begins), (1, .ends false), (1, .proceed), (0, .proceed)] 0
    (by decide +kernel)
  revert here
  decide +kernel

end EdvrPatch.OpenXr
