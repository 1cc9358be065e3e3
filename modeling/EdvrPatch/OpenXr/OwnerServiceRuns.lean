import EdvrPatch.OpenXr.OwnerService

/-! Every request that was accepted is completed once, and the finalizer stands between
the last of them and the return of a stop. The owner alone claims requests, one at a
time, and the first stop alone cancels them; who has a request is told by its life. -/
namespace EdvrPatch.OpenXr

open Lib

/-- The life of a request: it is queued, and then run by the owner or cancelled. -/
inductive Life where
  | outside
  | queued
  | claimed
  | begun
  | ended (success : Bool)
  | completing (success : Bool)
  | cancelled
  | retracting
  | finished (success : Bool)
  deriving DecidableEq, Repr

namespace Life

def isActive : Life → Bool
  | .claimed | .begun | .ended _ | .completing _ => true
  | _ => false

def isDropped : Life → Bool
  | .cancelled | .retracting => true
  | _ => false

theorem exists_finished {l : Life} (inside : l ≠ .outside) (taken : l ≠ .queued) (left : l.isActive = false)
    (kept : l.isDropped = false) : ∃ success, l = .finished success := by
  cases l with
  | finished success => exact ⟨success, rfl⟩
  | outside => exact absurd rfl inside
  | queued => exact absurd rfl taken
  | cancelled => cases kept
  | retracting => cases kept
  | _ => cases left

theorem isDropped_of_isActive {l : Life} (active : l.isActive = true) : l.isDropped = false := by
  cases l <;> first | rfl | cases active

end Life

/-- Read off the record. `stopped` is the first stop's thread and finalizer. -/
structure OwnerView where
  accepted : Nat := 0
  life : Nat → Life := fun _ => .outside
  stopped : Option (Nat × Option Nat) := none
  finalizing : Bool := false
  finalized : Bool := false

def OwnerView.setLife (v : OwnerView) (request : Nat) (l : Life) : OwnerView :=
  { v with life := Function.update v.life request l }

/-- A request is completed when its callback has ended, with what came of it, or when it
was cancelled while it was queued, and no other way. Requests are not accepted after the
first stop; the finalizer is that of the first stop and runs once, when every request is
over; neither a request's callback nor an inline one begins after it has; and a stop from
outside does not return before it has ended. -/
def ownerProtocol : Monitor OwnerView OwnerEvent where
  advance v
    | .accepted _ request => { v.setLife request .queued with accepted := request + 1 }
    | .refused _ => v
    | .inlined _ => v
    | .claimed request => v.setLife request .claimed
    | .began request => v.setLife request .begun
    | .ended request success => v.setLife request (.ended success)
    | .completed request success =>
      v.setLife request (if v.life request = .cancelled then .retracting else .completing success)
    | .finished request success => v.setLife request (.finished success)
    | .invokeReturned _ _ _ => v
    | .stopping thread finalizer =>
      { v with
        stopped := some (thread, finalizer)
        life := fun request => if v.life request = .queued then .cancelled else v.life request }
    | .finalizing _ => { v with finalizing := true }
    | .finalized => { v with finalized := true }
    | .stopReturned _ _ _ => v
  allows v
    | .accepted _ request => request = v.accepted ∧ v.life request = .outside ∧ v.stopped = none
    | .refused _ => True
    | .inlined _ => v.finalizing = false
    | .claimed request => v.life request = .queued
    | .began request => v.life request = .claimed ∧ v.finalizing = false
    | .ended request _ => v.life request = .begun
    | .completed request success =>
      v.life request = .ended success ∨ v.life request = .cancelled ∧ success = false
    | .finished request success =>
      v.life request = .completing success ∨ v.life request = .retracting ∧ success = false
    | .invokeReturned _ request result => v.life request = .finished result
    | .stopping _ _ => v.stopped = none
    | .finalizing finalizer => v.finalizing = false ∧ (∃ thread, v.stopped = some (thread, finalizer)) ∧
        ∀ request < v.accepted, ∃ success, v.life request = .finished success
    | .finalized => v.finalizing = true ∧ v.finalized = false
    | .stopReturned _ external _ => external = true → v.finalized = true

def OwnerBase.holds : OwnerBase → Option (Nat × Life)
  | .claimed r => some (r, .claimed)
  | .running r => some (r, .begun)
  | .ran r success => some (r, .ended success)
  | .completing r success => some (r, .completing success)
  | _ => none

def OwnerBase.isFinal : OwnerBase → Bool
  | .finalizing _ | .finalized _ | .exiting | .exited => true
  | _ => false

def OwnerBase.isFinalized : OwnerBase → Bool
  | .finalized _ | .exiting | .exited => true
  | _ => false

/-- The request that is being retracted, and those that are still to be. -/
def OwnerCall.cancel : OwnerCall → Option (Option Nat × List Nat)
  | .cancelling _ cancelled => some (none, cancelled)
  | .retracting _ r cancelled => some (some r, cancelled)
  | _ => none

namespace OwnerService

structure Linked (owner : Nat) (s : OwnerService) (v : OwnerView) : Prop where
  accepted : v.accepted = s.accepted
  outside : ∀ r, v.life r = .outside ↔ s.accepted ≤ r
  distinct : s.queue.Nodup
  queued : ∀ r, v.life r = .queued ↔ r ∈ s.queue
  done : ∀ r, (s.requests r).done = true → v.life r = .finished (s.requests r).success
  unstopped : v.stopped = none → s.running = true ∧ s.stopping = false ∧ s.cancellationReady = false ∧
    v.finalizing = false ∧ ∀ r, (v.life r).isDropped = false
  stopped : v.stopped ≠ none → s.queue = [] ∧ (s.stopping = true ∨ s.running = false)
  finalizer : ∀ thread finalizer, v.stopped = some (thread, finalizer) → v.finalizing = false →
    s.finalizer = finalizer
  ready : s.cancellationReady = true → ∀ r, (v.life r).isDropped = false
  past : v.finalizing = true → ∀ r < s.accepted, ∃ success, v.life r = .finished success
  finalized : v.finalized = true → v.finalizing = true
  exited : s.exited = true → v.finalized = true
  halted : s.running = false → v.finalized = true ∧ s.joinable = false
  joined : s.joinable = false → s.joining = true ∨ v.finalized = true
  ownerId : ∀ thread, s.ownerId = some thread → thread = owner

structure Owning (v : OwnerView) (task : OwnerTask) : Prop where
  active : ∀ r l, l.isActive = true → (v.life r = l ↔ task.base.holds = some (r, l))
  finalizing : v.finalizing = task.base.isFinal
  finalized : v.finalized = task.base.isFinalized
  entering : .entering ∈ task.calls → task.base.isFinal = false

structure Cancels (v : OwnerView) (c : Option Nat × List Nat) : Prop where
  distinct : c.2.Nodup
  cancelled : ∀ r, v.life r = .cancelled ↔ r ∈ c.2
  retracting : ∀ r, v.life r = .retracting ↔ c.1 = some r

/-- The first stop is in one call that cancels until it says that it is ready, and no
other thread is. -/
structure Held (owner : Nat) (s : OwnerService) (v : OwnerView) (thread : Nat) (task : OwnerTask) :
    Prop where
  foreign : thread ≠ owner → task.base = .outside ∧ .entering ∉ task.calls
  own : thread = owner → Owning v task
  quiet : (∀ finalizer, v.stopped ≠ some (thread, finalizer)) ∨ s.cancellationReady = true →
    task.calls.filterMap OwnerCall.cancel = []
  busy : ∀ finalizer, v.stopped = some (thread, finalizer) → s.cancellationReady = false →
    ∃ c, task.calls.filterMap OwnerCall.cancel = [c] ∧ Cancels v c
  joins : .joining ∈ task.calls → s.joinable = false

structure Beside (owner thread : Nat) (s : OwnerService) (v : OwnerView) (s' : OwnerService)
    (v' : OwnerView) : Prop where
  active : thread ≠ owner → (∀ r l, l.isActive = true → (v'.life r = l ↔ v.life r = l)) ∧
    v'.finalizing = v.finalizing ∧ v'.finalized = v.finalized
  stopped : v'.stopped = v.stopped ∨ v.stopped = none ∧ ∃ finalizer, v'.stopped = some (thread, finalizer)
  dropped : ∀ t finalizer, v.stopped = some (t, finalizer) → t ≠ thread →
    s'.cancellationReady = s.cancellationReady ∧
      ∀ r l, l.isDropped = true → (v'.life r = l ↔ v.life r = l)
  joinable : s.joinable = false → s'.joinable = false

variable {owner thread r : Nat} {s s' : OwnerService} {v v' : OwnerView} {task : OwnerTask}
  {base : OwnerBase} {calls : List OwnerCall}

theorem Beside.refl (owner thread : Nat) (s : OwnerService) (v : OwnerView) : Beside owner thread s v s v :=
  ⟨fun _ => ⟨fun _ _ _ => Iff.rfl, rfl, rfl⟩, .inl rfl, fun _ _ _ _ => ⟨rfl, fun _ _ _ => Iff.rfl⟩, id⟩

theorem Held.beside (beside : Beside owner thread s v s' v') {u : Nat} (apart : u ≠ thread)
    (held : Held owner s v u task) : Held owner s' v' u task := by
  refine ⟨held.foreign, fun isOwner => ?_, fun reason => ?_, fun finalizer isStopped unready => ?_,
    fun mem => beside.joinable (held.joins mem)⟩
  · have owning := held.own isOwner
    obtain ⟨active, finalizing, finalized⟩ := beside.active fun same => apart (isOwner.trans same.symm)
    exact ⟨fun r l isActive => (active r l isActive).trans (owning.active r l isActive),
      finalizing.trans owning.finalizing, finalized.trans owning.finalized, owning.entering⟩
  · by_cases mine : ∃ finalizer, v.stopped = some (u, finalizer)
    · obtain ⟨finalizer, isStopped⟩ := mine
      rcases beside.stopped with same | ⟨none_, _⟩
      · rcases reason with other | ready
        · exact absurd (same.trans isStopped) (other finalizer)
        · exact held.quiet (.inr ((beside.dropped u finalizer isStopped apart).1 ▸ ready))
      · rw [none_] at isStopped
        cases isStopped
    · exact held.quiet (.inl fun finalizer isStopped => mine ⟨finalizer, isStopped⟩)
  · have before : v.stopped = some (u, finalizer) := by
      rcases beside.stopped with same | ⟨_, other, isOther⟩
      · exact same.symm.trans isStopped
      · rw [isOther] at isStopped
        exact absurd (Prod.mk.inj (Option.some.inj isStopped)).1.symm apart
    obtain ⟨sameReady, dropped⟩ := beside.dropped u finalizer before apart
    obtain ⟨c, isCall, cancels⟩ := held.busy finalizer before (sameReady ▸ unready)
    exact ⟨c, isCall, cancels.distinct, fun r => (dropped r _ rfl).trans (cancels.cancelled r),
      fun r => (dropped r _ rfl).trans (cancels.retracting r)⟩

/-- The outcome of a step is lawful, what it leads to is known again, and the others are
not disturbed. -/
structure Good (owner : Nat) (s : OwnerService) (v : OwnerView) (thread : Nat)
    (o : OwnerService × OwnerTask × List OwnerEvent) : Prop where
  lawful : ownerProtocol.Admits v o.2.2
  linked : Linked owner o.1 (ownerProtocol.after v o.2.2)
  held : Held owner o.1 (ownerProtocol.after v o.2.2) thread o.2.1
  beside : Beside owner thread s v o.1 (ownerProtocol.after v o.2.2)

theorem Linked.stays (linked : Linked owner s v) (held : Held owner s v thread task) :
    Good owner s v thread (s, task, []) :=
  ⟨trivial, linked, held, .refl owner thread s v⟩

theorem Linked.known (linked : Linked owner s v) (inside : v.life r ≠ .outside) : r < s.accepted := by
  by_contra outside
  exact inside ((linked.outside r).mpr (Nat.le_of_not_lt outside))

theorem Linked.unfinal (linked : Linked owner s v) (inside : v.life r ≠ .outside)
    (unfinished : ∀ success, v.life r ≠ .finished success) : v.finalizing = false := by
  by_contra on
  obtain ⟨success, isFinished⟩ := linked.past (by simpa using on) r (linked.known inside)
  exact unfinished success isFinished

/-- A request that was taken out of the queue, and is not over, goes on. -/
structure Goes (v : OwnerView) (r : Nat) (l : Life) : Prop where
  inside : v.life r ≠ .outside
  taken : v.life r ≠ .queued
  unfinished : ∀ success, v.life r ≠ .finished success
  stays : l ≠ .outside
  away : l ≠ .queued
  dropped : l.isDropped = true → (v.life r).isDropped = true

@[simp] theorem life_setLife (v : OwnerView) (r : Nat) (l : Life) (k : Nat) :
    (v.setLife r l).life k = if k = r then l else v.life k :=
  Function.update_apply ..

variable {l : Life}

theorem Goes.isDropped (goes : Goes v r l) {k : Nat} (clear : ∀ k, (v.life k).isDropped = false) :
    ((v.setLife r l).life k).isDropped = false := by
  rw [life_setLife]
  split
  · by_contra dropped
    have before := goes.dropped (by simpa using dropped)
    rw [clear r] at before
    cases before
  · exact clear k

theorem Linked.goes (linked : Linked owner s v) (goes : Goes v r l) :
    Linked owner s (v.setLife r l) := by
  have final := linked.unfinal goes.inside goes.unfinished
  refine { linked with outside := fun k => ?_, queued := fun k => ?_, done := fun k isDone => ?_, unstopped := ?_, ready := ?_, past := ?_ }
  · rw [life_setLife]
    split
    · rename_i same
      subst same
      exact ⟨fun out => absurd out goes.stays, fun le => absurd ((linked.outside k).mpr le) goes.inside⟩
    · exact linked.outside k
  · rw [life_setLife]
    split
    · rename_i same
      subst same
      exact ⟨fun isQueued => absurd isQueued goes.away, fun mem => absurd ((linked.queued k).mpr mem) goes.taken⟩
    · exact linked.queued k
  · rw [life_setLife, if_neg]
    · exact linked.done k isDone
    · rintro rfl
      exact goes.unfinished _ (linked.done k isDone)
  · intro isStopped
    obtain ⟨running, stopping, ready, finalizing, clear⟩ := linked.unstopped isStopped
    exact ⟨running, stopping, ready, finalizing, fun k => goes.isDropped clear⟩
  · exact fun isReady k => goes.isDropped (linked.ready isReady)
  · intro on
    rw [show v.finalizing = true from on] at final
    cases final

theorem Linked.finish (linked : Linked owner s v) {success : Bool} (goes : Goes v r (.finished success)) :
    Linked owner (s.finish r success) (v.setLife r (.finished success)) := by
  refine { linked.goes goes with done := fun k isDone => ?_ }
  rw [life_setLife]
  by_cases same : k = r
  · subst same
    simp [OwnerService.finish]
  · rw [if_neg same]
    simp only [OwnerService.finish, Function.update_of_ne same] at isDone ⊢
    exact linked.done k isDone

variable {base' : OwnerBase}

theorem Held.rebase (held : Held owner s v thread ⟨base, []⟩) (isOwner : thread = owner)
    (owning : Owning v' ⟨base', []⟩) (stopped : v'.stopped = v.stopped)
    (ready : s'.cancellationReady = s.cancellationReady) : Held owner s' v' thread ⟨base', []⟩ := by
  refine ⟨fun other => absurd isOwner other, fun _ => owning, fun _ => rfl, fun finalizer isStopped unready => ?_,
    nofun⟩
  obtain ⟨c, isCall, _⟩ := held.busy finalizer (stopped ▸ isStopped) (ready ▸ unready)
  cases isCall

theorem Owning.goes (owning : Owning v ⟨base, []⟩) {l' : Life} (holds : base.holds = some (r, l))
    (holds' : base'.holds = some (r, l')) (final : base'.isFinal = base.isFinal)
    (finalized : base'.isFinalized = base.isFinalized) : Owning (v.setLife r l') ⟨base', []⟩ := by
  refine ⟨fun k m isActive => ?_, owning.finalizing.trans final.symm, owning.finalized.trans finalized.symm, nofun⟩
  rw [life_setLife]
  rw [holds']
  by_cases same : k = r
  · subst same
    simp
  · rw [if_neg same, owning.active k m isActive, holds]
    simp [Ne.symm same]

theorem Owning.finishes (owning : Owning v ⟨base, []⟩) {success : Bool}
    (holds : base.holds = some (r, l)) (holds' : base'.holds = none)
    (final : base'.isFinal = base.isFinal) (finalized : base'.isFinalized = base.isFinalized) :
    Owning (v.setLife r (.finished success)) ⟨base', []⟩ := by
  refine ⟨fun k m isActive => ?_, owning.finalizing.trans final.symm, owning.finalized.trans finalized.symm, nofun⟩
  rw [life_setLife]
  rw [holds']
  by_cases same : k = r
  · rw [if_pos same]
    refine ⟨?_, nofun⟩
    rintro rfl
    cases isActive
  · rw [if_neg same, owning.active k m isActive, holds]
    simp [Ne.symm same]

theorem Beside.byOwner (isOwner : thread = owner) (before : (v.life r).isDropped = false)
    (after : l.isDropped = false) (ready : s'.cancellationReady = s.cancellationReady)
    (joinable : s'.joinable = s.joinable) : Beside owner thread s v s' (v.setLife r l) := by
  refine ⟨fun other => absurd isOwner other, .inl rfl, fun _ _ _ _ => ⟨ready, fun k m isDropped => ?_⟩,
    joinable.trans⟩
  rw [life_setLife]
  split
  · rename_i same
    subst same
    refine ⟨?_, ?_⟩
    · rintro rfl
      rw [after] at isDropped
      cases isDropped
    · rintro rfl
      rw [before] at isDropped
      cases isDropped
  · exact Iff.rfl

theorem Held.isOwner (held : Held owner s v thread task) (inside : task.base ≠ .outside) : thread = owner := by
  by_contra other
  exact inside (held.foreign other).1

theorem Linked.runs (linked : Linked owner s v) (held : Held owner s v thread ⟨base, []⟩)
    {l' : Life} {e : OwnerEvent} (holds : base.holds = some (r, l))
    (holds' : base'.holds = some (r, l')) (isActive : l.isActive = true)
    (isActive' : l'.isActive = true) (final : base.isFinal = false ∧ base'.isFinal = false)
    (finalized : base'.isFinalized = base.isFinalized)
    (allowed : v.life r = l → v.finalizing = false → ownerProtocol.allows v e)
    (advances : v.life r = l → ownerProtocol.advance v e = v.setLife r l') :
    Good owner s v thread (s, ⟨base', []⟩, [e]) := by
  have isOwner := held.isOwner (by rintro rfl; cases holds)
  have owning := held.own isOwner
  have isLife : v.life r = l := (owning.active r l isActive).mpr holds
  have goes : Goes v r l' := by
    refine ⟨?_, ?_, ?_, ?_, ?_, ?_⟩
    · rw [isLife]
      rintro rfl
      cases isActive
    · rw [isLife]
      rintro rfl
      cases isActive
    · rw [isLife]
      rintro success rfl
      cases isActive
    · rintro rfl
      cases isActive'
    · rintro rfl
      cases isActive'
    · intro isDropped
      rw [Life.isDropped_of_isActive isActive'] at isDropped
      cases isDropped
  have view : ownerProtocol.after v [e] = v.setLife r l' := advances isLife
  refine ⟨⟨allowed isLife (owning.finalizing.trans final.1), trivial⟩, ?_, ?_, ?_⟩ <;> rw [view]
  · exact linked.goes goes
  · exact held.rebase isOwner (owning.goes holds holds' (final.2.trans final.1.symm) finalized) rfl rfl
  · refine Beside.byOwner isOwner ?_ (Life.isDropped_of_isActive isActive') rfl rfl
    rw [isLife]
    exact Life.isDropped_of_isActive isActive

theorem Held.idles (held : Held owner s v thread ⟨base, []⟩) (inside : base ≠ .outside)
    (holds : base.holds = base'.holds) (final : base'.isFinal = base.isFinal)
    (finalized : base'.isFinalized = base.isFinalized)
    (ready : s'.cancellationReady = s.cancellationReady) : Held owner s' v thread ⟨base', []⟩ := by
  have isOwner := held.isOwner inside
  have owning := held.own isOwner
  refine held.rebase isOwner ⟨fun k m isActive => ?_, owning.finalizing.trans final.symm,
    owning.finalized.trans finalized.symm, nofun⟩ rfl ready
  rw [owning.active k m isActive]
  rw [holds]

/-- Nobody's request is another's, and no stop has begun or is ready. -/
structure Same (s : OwnerService) (v : OwnerView) (s' : OwnerService) (v' : OwnerView) : Prop where
  life : ∀ r l, l.isActive = true ∨ l.isDropped = true → (v'.life r = l ↔ v.life r = l)
  stopped : v'.stopped = v.stopped
  finalizing : v'.finalizing = v.finalizing
  finalized : v'.finalized = v.finalized
  ready : s'.cancellationReady = s.cancellationReady
  joinable : s.joinable = false → s'.joinable = false

theorem Same.of_ready (ready : s'.cancellationReady = s.cancellationReady)
    (joinable : s.joinable = false → s'.joinable = false) : Same s v s' v :=
  ⟨fun _ _ _ => Iff.rfl, rfl, rfl, rfl, ready, joinable⟩

theorem Same.beside (same : Same s v s' v') (owner thread : Nat) : Beside owner thread s v s' v' :=
  ⟨fun _ => ⟨fun r l isActive => same.life r l (.inl isActive), same.finalizing, same.finalized⟩,
    .inl same.stopped, fun _ _ _ _ => ⟨same.ready, fun r l isDropped => same.life r l (.inr isDropped)⟩,
    same.joinable⟩

theorem Held.same (same : Same s v s' v') (held : Held owner s v thread task) : Held owner s' v' thread task := by
  refine ⟨held.foreign, fun isOwner => ?_, fun reason => held.quiet ?_, fun finalizer isStopped unready => ?_,
    fun mem => same.joinable (held.joins mem)⟩
  · have owning := held.own isOwner
    exact ⟨fun r l isActive => (same.life r l (.inl isActive)).trans (owning.active r l isActive),
      same.finalizing.trans owning.finalizing, same.finalized.trans owning.finalized, owning.entering⟩
  · rwa [same.stopped, same.ready] at reason
  · rw [same.stopped] at isStopped
    rw [same.ready] at unready
    obtain ⟨c, isCall, cancels⟩ := held.busy finalizer isStopped unready
    exact ⟨c, isCall, cancels.distinct, fun r => (same.life r _ (.inr rfl)).trans (cancels.cancelled r),
      fun r => (same.life r _ (.inr rfl)).trans (cancels.retracting r)⟩

theorem Linked.quietly (linked' : Linked owner s' v) (held' : Held owner s' v thread task)
    (ready : s'.cancellationReady = s.cancellationReady) (joinable : s.joinable = false → s'.joinable = false) :
    Good owner s v thread (s', task, []) :=
  ⟨trivial, linked', held', (Same.of_ready ready joinable).beside owner thread⟩

theorem Linked.claims (linked : Linked owner s v) (held : Held owner s v thread ⟨.looping, []⟩) {rest : List Nat}
    (isQueue : s.queue = r :: rest) :
    Good owner s v thread ({ s with queue := rest }, ⟨.claimed r, []⟩, [.claimed r]) := by
  have isOwner := held.isOwner nofun
  have owning := held.own isOwner
  have mem : r ∈ s.queue := by simp [isQueue]
  have isQueued := (linked.queued r).mpr mem
  have distinct := linked.distinct
  rw [isQueue] at distinct
  obtain ⟨fresh, distinct⟩ := List.nodup_cons.mp distinct
  have unstopped : v.stopped = none := by
    by_contra isStopped
    rw [(linked.stopped isStopped).1] at mem
    cases mem
  obtain ⟨running, stopping, ready, final, clear⟩ := linked.unstopped unstopped
  have clear' : ∀ k, ((v.setLife r .claimed).life k).isDropped = false := by
    intro k
    rw [life_setLife]
    split
    · rfl
    · exact clear k
  refine ⟨⟨isQueued, trivial⟩, { linked with outside := fun k => ?_, distinct := distinct, queued := fun k => ?_, done := fun k isDone => ?_, unstopped := fun _ => ⟨running, stopping, ready, final, clear'⟩, stopped := fun isStopped => absurd unstopped isStopped, ready := fun _ => clear', past := fun on => ?_ },
    held.rebase isOwner ⟨fun k m isActive => ?_, owning.finalizing, owning.finalized, nofun⟩ rfl rfl,
    Beside.byOwner isOwner (clear r) rfl rfl rfl⟩
  · show (v.setLife r .claimed).life k = _ ↔ _
    rw [life_setLife]
    split
    · rename_i same
      subst same
      exact ⟨nofun, fun le => absurd ((linked.outside k).mpr le) (by rw [isQueued]; nofun)⟩
    · exact linked.outside k
  · show (v.setLife r .claimed).life k = _ ↔ k ∈ rest
    rw [life_setLife]
    split
    · rename_i same
      subst same
      exact ⟨nofun, fun mem => absurd mem fresh⟩
    · rename_i other
      rw [linked.queued k, isQueue, List.mem_cons]
      exact or_iff_right other
  · show (v.setLife r .claimed).life k = _
    rw [life_setLife, if_neg]
    · exact linked.done k isDone
    · rintro rfl
      have isFinished := linked.done k isDone
      rw [isQueued] at isFinished
      cases isFinished
  · rw [show v.finalizing = true from on] at final
    cases final
  · show (v.setLife r .claimed).life k = _ ↔ some (r, Life.claimed) = _
    rw [life_setLife]
    by_cases same : k = r
    · subst same
      simp
    · rw [if_neg same, owning.active k m isActive]
      simp [OwnerBase.holds, Ne.symm same]

theorem Linked.nextWork (linked : Linked owner s v) (held : Held owner s v thread ⟨.looping, []⟩) :
    Good owner s v thread (s.nextWork.1, ⟨s.nextWork.2.1, []⟩, s.nextWork.2.2) := by
  unfold OwnerService.nextWork
  split
  · exact linked.quietly (held.idles nofun rfl rfl rfl rfl) rfl id
  split
  · rename_i r rest isQueue
    exact linked.claims held isQueue
  · dsimp only
    split <;> exact linked.quietly (held.idles nofun rfl rfl rfl rfl) rfl id

theorem Linked.all_over (linked : Linked owner s v) (owning : Owning v ⟨base, []⟩) (free : base.holds = none)
    (ready : s.cancellationReady = true) (known : r < s.accepted) : ∃ success, v.life r = .finished success := by
  have isStopped : v.stopped ≠ none := by
    intro unstopped
    rw [(linked.unstopped unstopped).2.2.1] at ready
    cases ready
  refine Life.exists_finished (fun out => ?_) (fun isQueued => ?_) ?_ (linked.ready ready r)
  · exact absurd ((linked.outside r).mp out) (Nat.not_le_of_lt known)
  · have mem := (linked.queued r).mp isQueued
    rw [(linked.stopped isStopped).1] at mem
    cases mem
  · by_contra isActive
    have holds := (owning.active r _ (by simpa using isActive)).mp rfl
    rw [free] at holds
    cases holds

theorem Linked.finalizes (linked : Linked owner s v) (held : Held owner s v thread ⟨.awaitingReady, []⟩)
    (ready : s.cancellationReady = true) :
    Good owner s v thread
      ({ s with finalizer := none }, ⟨.finalizing s.finalizer, []⟩, [.finalizing s.finalizer]) := by
  have isOwner := held.isOwner nofun
  have owning := held.own isOwner
  have all : ∀ r < s.accepted, ∃ success, v.life r = .finished success :=
    fun r known => linked.all_over owning rfl ready known
  have stopped : ∃ thread, v.stopped = some (thread, s.finalizer) := by
    cases isStopped : v.stopped with
    | none =>
      rw [(linked.unstopped isStopped).2.2.1] at ready
      cases ready
    | some first =>
      obtain ⟨thread, finalizer⟩ := first
      rw [linked.finalizer thread finalizer isStopped owning.finalizing]
      exact ⟨thread, rfl⟩
  obtain ⟨first, isStopped⟩ := stopped
  refine ⟨⟨⟨owning.finalizing, ⟨first, isStopped⟩, linked.accepted ▸ all⟩, trivial⟩,
    { linked with unstopped := fun unstopped => ?_, finalizer := nofun, past := fun _ => all, finalized := fun _ => rfl },
    held.rebase isOwner ⟨owning.active, rfl, owning.finalized, nofun⟩ rfl rfl,
    ⟨fun other => absurd isOwner other, .inl rfl, fun _ _ _ _ => ⟨rfl, fun _ _ _ => Iff.rfl⟩, id⟩⟩
  rw [show v.stopped = none from unstopped] at isStopped
  cases isStopped

theorem Linked.proceedBase (linked : Linked owner s v) (held : Held owner s v thread ⟨base, []⟩) (idleDue : Bool) :
    Good owner s v thread ((s.proceedBase thread base idleDue).1, ⟨(s.proceedBase thread base idleDue).2.1, []⟩,
      (s.proceedBase thread base idleDue).2.2) := by
  unfold OwnerService.proceedBase
  split
  · refine Linked.quietly { linked with ownerId := fun t isOwner => ?_ } (held.idles nofun rfl rfl rfl rfl) rfl id
    rw [← Option.some.inj isOwner]
    exact held.isOwner nofun
  · exact linked.nextWork held
  · exact linked.runs held rfl rfl rfl rfl ⟨rfl, rfl⟩ rfl (fun isLife final => ⟨isLife, final⟩) fun _ => rfl
  · refine linked.runs held rfl rfl rfl rfl ⟨rfl, rfl⟩ rfl (fun isLife _ => .inl isLife) fun isLife => ?_
    simp [ownerProtocol, isLife]
  · rename_i r success
    have isOwner := held.isOwner nofun
    have owning := held.own isOwner
    have isLife : v.life r = .completing success := (owning.active r _ rfl).mpr rfl
    have goes : Goes v r (.finished success) := by
      constructor <;> simp [isLife, Life.isDropped]
    refine ⟨⟨.inl isLife, trivial⟩, linked.finish goes, held.rebase isOwner (owning.finishes rfl rfl rfl rfl) rfl rfl,
      Beside.byOwner isOwner ?_ rfl rfl rfl⟩
    rw [isLife]
    rfl
  · dsimp only
    split <;> exact linked.quietly (held.idles nofun rfl rfl rfl rfl) rfl id
  · split
    · rename_i ready
      exact linked.finalizes held ready
    · exact linked.stays held
  · exact Linked.quietly { linked with ownerId := nofun } (held.idles nofun rfl rfl rfl rfl) rfl id
  · exact Linked.quietly { linked with exited := fun _ => (held.own (held.isOwner nofun)).finalized }
      (held.idles nofun rfl rfl rfl rfl) rfl id
  · exact linked.stays held

theorem Linked.endBase (linked : Linked owner s v) (held : Held owner s v thread ⟨base, []⟩) (success : Bool) :
    Good owner s v thread ((s.endBase base success).1, ⟨(s.endBase base success).2.1, []⟩,
      (s.endBase base success).2.2) := by
  unfold OwnerService.endBase
  split
  · exact linked.runs held rfl rfl rfl rfl ⟨rfl, rfl⟩ rfl (fun isLife _ => isLife) fun _ => rfl
  · exact Linked.quietly { linked with } (held.idles nofun rfl rfl rfl rfl) rfl id
  · have isOwner := held.isOwner nofun
    have owning := held.own isOwner
    exact ⟨⟨⟨owning.finalizing, owning.finalized⟩, trivial⟩,
      { linked with finalized := fun _ => owning.finalizing, exited := fun _ => rfl, halted := fun off => ⟨rfl, (linked.halted off).2⟩, joined := fun _ => .inr rfl },
      held.rebase isOwner ⟨owning.active, owning.finalizing, rfl, nofun⟩ rfl rfl,
      ⟨fun other => absurd isOwner other, .inl rfl, fun _ _ _ _ => ⟨rfl, fun _ _ _ => Iff.rfl⟩, id⟩⟩
  · exact linked.stays held

theorem Held.recalls (held : Held owner s v thread ⟨base, calls⟩) {calls' : List OwnerCall}
    (cancel : calls'.filterMap OwnerCall.cancel = calls.filterMap OwnerCall.cancel)
    (entering : .entering ∈ calls' → .entering ∈ calls ∨ thread = owner ∧ v.finalizing = false)
    (joins : .joining ∈ calls' → .joining ∈ calls ∨ s.joinable = false) :
    Held owner s v thread ⟨base, calls'⟩ := by
  refine ⟨fun other => ⟨(held.foreign other).1, fun mem => ?_⟩, fun isOwner => ?_, cancel ▸ held.quiet, ?_,
    fun mem => (joins mem).elim held.joins id⟩
  · rcases entering mem with before | ⟨isOwner, _⟩
    · exact (held.foreign other).2 before
    · exact other isOwner
  · have owning := held.own isOwner
    refine ⟨owning.active, owning.finalizing, owning.finalized, fun mem => ?_⟩
    rcases entering mem with before | ⟨_, final⟩
    · exact owning.entering before
    · exact owning.finalizing.symm.trans final
  · exact cancel ▸ held.busy

variable {call : OwnerCall}

theorem Held.push (held : Held owner s v thread ⟨base, calls⟩) (cancel : call.cancel = none)
    (plain : call ≠ .entering) (joins : call = .joining → s.joinable = false) :
    Held owner s v thread ⟨base, call :: calls⟩ := by
  refine held.recalls (List.filterMap_cons_none cancel) (fun mem => ?_) fun mem => ?_
  · rcases List.mem_cons.mp mem with same | old
    · exact absurd same.symm plain
    · exact .inl old
  · rcases List.mem_cons.mp mem with same | old
    · exact .inr (joins same.symm)
    · exact .inl old

theorem Held.pop (held : Held owner s v thread ⟨base, call :: calls⟩)
    (cancel : call.cancel = none) : Held owner s v thread ⟨base, calls⟩ :=
  held.recalls (List.filterMap_cons_none cancel).symm (fun mem => .inl (List.mem_cons_of_mem _ mem))
    fun mem => .inl (List.mem_cons_of_mem _ mem)

/-- A thread that cancels is the first stop's, has not said it is ready, and has one such
call. -/
theorem Held.cancelling {c : Option Nat × List Nat}
    (held : Held owner s v thread ⟨base, call :: calls⟩) (cancel : call.cancel = some c) :
    (∃ finalizer, v.stopped = some (thread, finalizer)) ∧ s.cancellationReady = false ∧
      calls.filterMap OwnerCall.cancel = [] ∧ Cancels v c := by
  have some_ : ¬(call :: calls).filterMap OwnerCall.cancel = [] := by
    rw [List.filterMap_cons_some cancel]
    nofun
  have mine : ∃ finalizer, v.stopped = some (thread, finalizer) := by
    by_contra other
    exact some_ (held.quiet (.inl fun finalizer isStopped => other ⟨finalizer, isStopped⟩))
  have unready : s.cancellationReady = false := by
    by_contra ready
    exact some_ (held.quiet (.inr (by simpa using ready)))
  obtain ⟨finalizer, isStopped⟩ := mine
  obtain ⟨c', isCall, cancels⟩ := held.busy finalizer isStopped unready
  rw [List.filterMap_cons_some cancel] at isCall
  obtain ⟨same, none_⟩ := List.cons.inj isCall
  exact ⟨⟨finalizer, isStopped⟩, unready, none_, same ▸ cancels⟩

theorem Linked.unstopped_of_admits (linked : Linked owner s v) (admits : s.admits = true) : v.stopped = none := by
  by_contra isStopped
  simp only [OwnerService.admits, Bool.and_eq_true, Bool.not_eq_true'] at admits
  rcases (linked.stopped isStopped).2 with stopping | halted
  · rw [admits.2] at stopping
    cases stopping
  · rw [admits.1] at halted
    cases halted

theorem Linked.accepts (linked : Linked owner s v) (admits : s.admits = true) {said : OwnerEvent}
    (isSaid : said = .accepted thread s.accepted) :
    ownerProtocol.Admits v [said] ∧ Linked owner s.push (ownerProtocol.after v [said]) ∧
      Same s v s.push (ownerProtocol.after v [said]) := by
  subst isSaid
  have unstopped := linked.unstopped_of_admits admits
  obtain ⟨running, stopping, ready, final, clear⟩ := linked.unstopped unstopped
  have out : v.life s.accepted = .outside := (linked.outside _).mpr (Nat.le_refl _)
  have clear' : ∀ k, ((v.setLife s.accepted .queued).life k).isDropped = false := by
    intro k
    rw [life_setLife]
    split
    · rfl
    · exact clear k
  refine ⟨⟨⟨linked.accepted.symm, out, unstopped⟩, trivial⟩,
    { linked with accepted := rfl, outside := fun k => ?_, distinct := ?_, queued := fun k => ?_, done := fun k isDone => ?_, unstopped := fun _ => ⟨running, stopping, ready, final, clear'⟩, stopped := fun isStopped => absurd unstopped isStopped, ready := fun _ => clear', past := fun on => ?_ },
    ⟨fun k l kept => ?_, rfl, rfl, rfl, rfl, id⟩⟩
  · show (v.setLife s.accepted .queued).life k = _ ↔ s.accepted + 1 ≤ k
    rw [life_setLife]
    split
    · rename_i same
      rw [same]
      exact ⟨nofun, fun le => absurd le (Nat.not_succ_le_self _)⟩
    · rename_i other
      rw [linked.outside k]
      omega
  · refine List.nodup_append.mpr ⟨linked.distinct, List.nodup_singleton _, fun a mem b last => ?_⟩
    rw [List.mem_singleton.mp last]
    rintro rfl
    have isQueued := (linked.queued _).mpr mem
    rw [out] at isQueued
    cases isQueued
  · show (v.setLife s.accepted .queued).life k = _ ↔ k ∈ s.queue ++ [s.accepted]
    rw [life_setLife, List.mem_append, List.mem_singleton]
    split
    · rename_i same
      exact ⟨fun _ => .inr same, fun _ => rfl⟩
    · rename_i other
      rw [linked.queued k]
      exact (or_iff_left other).symm
  · show (v.setLife s.accepted .queued).life k = _
    rw [life_setLife, if_neg]
    · exact linked.done k isDone
    · rintro rfl
      have isFinished := linked.done _ isDone
      rw [out] at isFinished
      cases isFinished
  · rw [show v.finalizing = true from on] at final
    cases final
  · show (v.setLife s.accepted .queued).life k = l ↔ _
    rw [life_setLife]
    split
    · rename_i same
      cases l <;> simp_all [Life.isActive, Life.isDropped]
    · exact Iff.rfl

theorem Linked.refuses (linked : Linked owner s v) (held : Held owner s v thread task) :
    Good owner s v thread (s, task, [.refused thread]) :=
  ⟨⟨trivial, trivial⟩, linked, held, .refl owner thread s v⟩

theorem Linked.invoke (linked : Linked owner s v) (held : Held owner s v thread task) (callback allocated : Bool) :
    Good owner s v thread (s.invoke thread task callback allocated) := by
  unfold OwnerService.invoke
  split
  · exact linked.refuses held
  split
  · rename_i mine
    split
    · rename_i admits
      have isOwner : thread = owner := linked.ownerId thread (by simpa [OwnerService.isOwner] using mine)
      have final := (linked.unstopped (linked.unstopped_of_admits admits)).2.2.2.1
      refine linked.quietly (held.recalls (List.filterMap_cons_none rfl) (fun _ => .inr ⟨isOwner, final⟩)
        fun mem => .inl ?_) rfl id
      exact (List.mem_cons.mp mem).resolve_left nofun
    · exact linked.refuses held
  split
  · rename_i fine
    obtain ⟨lawful, linked', same⟩ := linked.accepts fine.2.1 rfl
    exact ⟨lawful, linked', (held.same same).push rfl nofun nofun, same.beside owner thread⟩
  · exact linked.refuses held

theorem Linked.submit (linked : Linked owner s v) (held : Held owner s v thread task) (callback allocated : Bool) :
    Good owner s v thread (s.submit thread task callback allocated) := by
  unfold OwnerService.submit
  split
  · rename_i fine
    obtain ⟨lawful, linked', same⟩ := linked.accepts fine.2.2.1 rfl
    exact ⟨lawful, linked', held.same same, same.beside owner thread⟩
  · exact linked.refuses held

theorem Linked.leaveStop (linked : Linked owner s v) (held : Held owner s v thread task)
    (finalized : v.finalized = true) : Good owner s v thread (s.leaveStop thread task) := by
  have same : Same s v (s.leaveStop thread task).1 v := Same.of_ready rfl id
  exact ⟨⟨fun _ => finalized, trivial⟩, { linked with }, held.same same, same.beside owner thread⟩

theorem Linked.awaitExit (linked : Linked owner s v) (held : Held owner s v thread task) (mine : Bool) :
    Good owner s v thread (s.awaitExit thread mine task) := by
  unfold OwnerService.awaitExit
  split
  · exact ⟨⟨nofun, trivial⟩, linked, held, .refl owner thread s v⟩
  split
  · rename_i past
    exact linked.leaveStop held (linked.halted (by simpa using past.2)).1
  split
  · exact linked.quietly (held.push rfl nofun nofun) rfl id
  · have same : Same s v { s with joining := true, joinable := false } v := Same.of_ready rfl fun _ => rfl
    exact Linked.quietly { linked with joined := fun _ => .inl rfl, halted := fun off => ⟨(linked.halted off).1, rfl⟩ }
      ((held.same same).push rfl nofun fun _ => rfl) rfl fun _ => rfl

theorem Linked.stops (linked : Linked owner s v) (held : Held owner s v thread ⟨base, calls⟩)
    (unstopping : s.stopping = false) (on : s.running = true ∨ s.joinable = true) (mine : Bool)
    (finalizer : Option Nat) :
    Good owner s v thread ({ s with stopping := true, finalizer := finalizer, queue := [] },
      ⟨base, .cancelling mine s.queue :: calls⟩, [.stopping thread finalizer]) := by
  have unstopped : v.stopped = none := by
    by_contra isStopped
    rcases (linked.stopped isStopped).2 with stopping | halted
    · rw [unstopping] at stopping
      cases stopping
    · rw [halted, (linked.halted halted).2] at on
      simp at on
  obtain ⟨_, _, ready, final, clear⟩ := linked.unstopped unstopped
  -- queued requests are with this stop now, and nothing else has changed
  have active : ∀ r l, l.isActive = true →
      ((if v.life r = .queued then Life.cancelled else v.life r) = l ↔ v.life r = l) := by
    intro r l isActive
    split
    · rename_i isQueued
      cases l <;> simp_all [Life.isActive]
    · exact Iff.rfl
  have cancelled : ∀ r, (if v.life r = .queued then Life.cancelled else v.life r) = .cancelled ↔
      r ∈ s.queue := by
    intro r
    rw [← linked.queued r]
    split
    · rename_i isQueued
      simp [isQueued]
    · rename_i other
      have kept := clear r
      cases isLife : v.life r <;> simp_all [Life.isDropped]
  have retracting : ∀ r, (if v.life r = .queued then Life.cancelled else v.life r) ≠ .retracting := by
    intro r isRetracting
    split at isRetracting
    · cases isRetracting
    · have kept := clear r
      rw [isRetracting] at kept
      cases kept
  have none_ : calls.filterMap OwnerCall.cancel = [] := held.quiet (.inl fun f isStopped => by
    rw [unstopped] at isStopped
    cases isStopped)
  refine ⟨⟨unstopped, trivial⟩, { linked with outside := fun k => ?_, distinct := List.nodup_nil, queued := fun k => ?_, done := fun k isDone => ?_, unstopped := nofun, stopped := fun _ => ⟨rfl, .inl rfl⟩, finalizer := fun t f isStopped _ => ?_, ready := fun isReady => ?_, past := fun on => ?_ },
    ⟨fun other => ⟨(held.foreign other).1, fun mem => ?_⟩, fun isOwner => ?_, fun reason => ?_, fun f _ _ => ?_, fun mem => ?_⟩,
    ⟨fun _ => ⟨active, rfl, rfl⟩, .inr ⟨unstopped, finalizer, rfl⟩, fun t f isStopped => ?_, id⟩⟩
  · show (if v.life k = .queued then Life.cancelled else v.life k) = _ ↔ _
    rw [← linked.outside k]
    split
    · rename_i isQueued
      simp [isQueued]
    · exact Iff.rfl
  · show (if v.life k = .queued then Life.cancelled else v.life k) = _ ↔ k ∈ []
    split <;> simp_all
  · show (if v.life k = .queued then Life.cancelled else v.life k) = _
    have isFinished := linked.done k isDone
    rw [if_neg]
    · exact isFinished
    · rw [isFinished]
      nofun
  · exact (Prod.mk.inj (Option.some.inj isStopped)).2
  · rw [show s.cancellationReady = true from isReady] at ready
    cases ready
  · rw [show v.finalizing = true from on] at final
    cases final
  · exact (held.foreign other).2 ((List.mem_cons.mp mem).resolve_left nofun)
  · have owning := held.own isOwner
    exact ⟨fun r l isActive => (active r l isActive).trans (owning.active r l isActive), owning.finalizing,
      owning.finalized, fun mem => owning.entering ((List.mem_cons.mp mem).resolve_left nofun)⟩
  · rcases reason with other | isReady
    · exact absurd rfl (other finalizer)
    · rw [show s.cancellationReady = true from isReady] at ready
      cases ready
  · exact ⟨(none, s.queue), congrArg ((none, s.queue) :: ·) none_, linked.distinct, cancelled,
      fun r => ⟨fun isLife => absurd isLife (retracting r), nofun⟩⟩
  · exact held.joins ((List.mem_cons.mp mem).resolve_left nofun)
  · rw [unstopped] at isStopped
    cases isStopped

theorem Linked.stop (linked : Linked owner s v) (held : Held owner s v thread task) (finalizer : Option Nat) :
    Good owner s v thread (s.stop thread task finalizer) := by
  have counted : ∃ callers, (if s.isOwner thread then s else { s with stopCallers := s.stopCallers + 1 }) =
      { s with stopCallers := callers } := by
    split
    · exact ⟨s.stopCallers, rfl⟩
    · exact ⟨_, rfl⟩
  obtain ⟨callers, isCounted⟩ := counted
  unfold OwnerService.stop
  dsimp only
  rw [isCounted]
  have linked' : Linked owner { s with stopCallers := callers } v := { linked with }
  have same : Same s v { s with stopCallers := callers } v := Same.of_ready rfl id
  have held' := held.same same
  split
  · rename_i first
    have good := linked'.stops held' (by simpa using first.2) first.1 (s.isOwner thread) finalizer
    exact ⟨good.lawful, good.linked, good.held, { good.beside with }⟩
  · have good := linked'.awaitExit held' (s.isOwner thread)
    exact ⟨good.lawful, good.linked, good.held, { good.beside with }⟩

theorem Held.drops {call' : OwnerCall} {c c' : Option Nat × List Nat}
    (held : Held owner s v thread ⟨base, call :: calls⟩) (cancel : call.cancel = some c)
    (cancel' : call'.cancel = some c') (cancels : Cancels (v.setLife r l) c')
    (before : (v.life r).isActive = false) (after : l.isActive = false)
    (ready : s'.cancellationReady = s.cancellationReady) (joinable : s'.joinable = s.joinable) :
    Held owner s' (v.setLife r l) thread ⟨base, call' :: calls⟩ ∧
      Beside owner thread s v s' (v.setLife r l) := by
  obtain ⟨⟨finalizer, isStopped⟩, unready, none_, _⟩ := held.cancelling cancel
  have active : ∀ k m, m.isActive = true → ((v.setLife r l).life k = m ↔ v.life k = m) := by
    intro k m isActive
    rw [life_setLife]
    split
    · rename_i same
      subst same
      refine ⟨?_, ?_⟩ <;> rintro rfl
      · rw [after] at isActive
        cases isActive
      · rw [before] at isActive
        cases isActive
    · exact Iff.rfl
  have rest : ∀ other, other.cancel = none → other ∈ call' :: calls → other ∈ call :: calls := by
    intro other isNone mem
    rcases List.mem_cons.mp mem with rfl | old
    · rw [cancel'] at isNone
      cases isNone
    · exact List.mem_cons_of_mem _ old
  refine ⟨⟨fun other => ⟨(held.foreign other).1, fun mem => (held.foreign other).2 (rest _ rfl mem)⟩, fun isOwner => ?_,
    fun reason => ?_, fun _ _ _ => ⟨c', ?_, cancels⟩, fun mem => joinable.trans (held.joins (rest _ rfl mem))⟩,
    ⟨fun _ => ⟨active, rfl, rfl⟩, .inl rfl, fun t f other apart => ?_, joinable.trans⟩⟩
  · have owning := held.own isOwner
    exact ⟨fun k m isActive => (active k m isActive).trans (owning.active k m isActive), owning.finalizing,
      owning.finalized, fun mem => owning.entering (rest _ rfl mem)⟩
  · rcases reason with other | isReady
    · exact absurd isStopped (other finalizer)
    · rw [ready, unready] at isReady
      cases isReady
  · rw [List.filterMap_cons_some cancel', none_]
  · rw [isStopped] at other
    exact absurd (Prod.mk.inj (Option.some.inj other)).1.symm apart

variable {mine : Bool}

theorem Linked.retracts (linked : Linked owner s v) {cancelled : List Nat}
    (held : Held owner s v thread ⟨base, .cancelling mine (r :: cancelled) :: calls⟩) :
    Good owner s v thread (s, ⟨base, .retracting mine r cancelled :: calls⟩, [.completed r false]) := by
  obtain ⟨_, _, _, cancels⟩ := held.cancelling rfl
  have isLife : v.life r = .cancelled := (cancels.cancelled r).mpr List.mem_cons_self
  obtain ⟨fresh, distinct⟩ := List.nodup_cons.mp cancels.distinct
  have view : ownerProtocol.after v [.completed r false] = v.setLife r .retracting := by
    simp [ownerProtocol, isLife]
  have goes : Goes v r .retracting := by
    constructor <;> simp [isLife, Life.isDropped]
  have cancels' : Cancels (v.setLife r .retracting) (some r, cancelled) := by
    refine ⟨distinct, fun k => ?_, fun k => ?_⟩ <;> rw [life_setLife] <;> by_cases same : k = r
    · subst same
      simp [fresh]
    · rw [if_neg same, cancels.cancelled k, List.mem_cons]
      exact or_iff_right same
    · subst same
      simp
    · rw [if_neg same, cancels.retracting k]
      simp [Ne.symm same]
  have passive : (v.life r).isActive = false := by
    rw [isLife]
    rfl
  have both : Held owner s (v.setLife r .retracting) thread ⟨base, .retracting mine r cancelled :: calls⟩ ∧
      Beside owner thread s v s (v.setLife r .retracting) :=
    held.drops rfl rfl cancels' passive rfl rfl rfl
  refine ⟨⟨.inr ⟨isLife, rfl⟩, trivial⟩, ?_, ?_, ?_⟩ <;> rw [view]
  · exact linked.goes goes
  · exact both.1
  · exact both.2

theorem Linked.discards (linked : Linked owner s v) {cancelled : List Nat}
    (held : Held owner s v thread ⟨base, .retracting mine r cancelled :: calls⟩) :
    Good owner s v thread
      (s.finish r false, ⟨base, .cancelling mine cancelled :: calls⟩, [.finished r false]) := by
  obtain ⟨_, _, _, cancels⟩ := held.cancelling rfl
  have isLife : v.life r = .retracting := (cancels.retracting r).mpr rfl
  have goes : Goes v r (.finished false) := by
    constructor <;> simp [isLife, Life.isDropped]
  have cancels' : Cancels (v.setLife r (.finished false)) (none, cancelled) := by
    refine ⟨cancels.distinct, fun k => ?_, fun k => ?_⟩ <;> rw [life_setLife] <;> by_cases same : k = r
    · rw [if_pos same]
      refine ⟨nofun, fun mem => ?_⟩
      have isCancelled := (cancels.cancelled k).mpr mem
      rw [same, isLife] at isCancelled
      cases isCancelled
    · rw [if_neg same, cancels.cancelled k]
    · rw [if_pos same]
      exact ⟨nofun, nofun⟩
    · rw [if_neg same, cancels.retracting k]
      simp [Ne.symm same]
  have passive : (v.life r).isActive = false := by
    rw [isLife]
    rfl
  have both : Held owner (s.finish r false) (v.setLife r (.finished false)) thread
      ⟨base, .cancelling mine cancelled :: calls⟩ ∧
      Beside owner thread s v (s.finish r false) (v.setLife r (.finished false)) :=
    held.drops rfl rfl cancels' passive rfl rfl rfl
  exact ⟨⟨.inr ⟨isLife, rfl⟩, trivial⟩, linked.finish goes, both.1, both.2⟩

theorem Linked.readies (linked : Linked owner s v)
    (held : Held owner s v thread ⟨base, .cancelling mine [] :: calls⟩) :
    Good owner s v thread (OwnerService.awaitExit { s with cancellationReady := true } thread mine ⟨base, calls⟩) := by
  obtain ⟨⟨finalizer, isStopped⟩, _, none_, cancels⟩ := held.cancelling rfl
  have clear : ∀ k, (v.life k).isDropped = false := by
    intro k
    by_contra isDropped
    cases isLife : v.life k with
    | cancelled => cases (cancels.cancelled k).mp isLife
    | retracting => cases (cancels.retracting k).mp isLife
    | _ =>
      rw [isLife] at isDropped
      exact isDropped rfl
  have linked' : Linked owner { s with cancellationReady := true } v := by
    refine { linked with unstopped := fun unstopped => ?_, ready := fun _ => clear }
    rw [unstopped] at isStopped
    cases isStopped
  have held' : Held owner { s with cancellationReady := true } v thread ⟨base, calls⟩ := by
    refine ⟨fun other => ⟨(held.foreign other).1, fun mem => ?_⟩, fun isOwner => ?_, fun _ => none_, nofun,
      fun mem => held.joins (List.mem_cons_of_mem _ mem)⟩
    · exact (held.foreign other).2 (List.mem_cons_of_mem _ mem)
    · have owning := held.own isOwner
      exact ⟨owning.active, owning.finalizing, owning.finalized,
        fun mem => owning.entering (List.mem_cons_of_mem _ mem)⟩
  have good := linked'.awaitExit held' mine
  refine ⟨good.lawful, good.linked, good.held, { good.beside with dropped := fun t f other apart => ?_ }⟩
  rw [isStopped] at other
  exact absurd (Prod.mk.inj (Option.some.inj other)).1.symm apart

theorem Linked.joins (linked : Linked owner s v) (held : Held owner s v thread ⟨base, .joining :: calls⟩)
    (exited : s.exited = true) :
    Good owner s v thread
      (OwnerService.leaveStop { s with running := false, stopping := false, joining := false, ownerId := none } thread
        ⟨base, calls⟩) := by
  have finalized := linked.exited exited
  have joinable := held.joins List.mem_cons_self
  have linked' : Linked owner { s with running := false, stopping := false, joining := false, ownerId := none } v := by
    refine { linked with unstopped := fun unstopped => ?_, stopped := fun isStopped => ⟨(linked.stopped isStopped).1, .inr rfl⟩, halted := fun _ => ⟨finalized, joinable⟩, joined := fun _ => .inr finalized, ownerId := nofun }
    have on := linked.finalized finalized
    rw [(linked.unstopped unstopped).2.2.2.1] at on
    cases on
  have same : Same s v { s with running := false, stopping := false, joining := false, ownerId := none } v :=
    Same.of_ready rfl id
  have good := linked'.leaveStop ((held.pop rfl).same same) finalized
  exact ⟨good.lawful, good.linked, good.held, { good.beside with }⟩

theorem Linked.proceedCall (linked : Linked owner s v)
    (held : Held owner s v thread ⟨base, call :: calls⟩) :
    Good owner s v thread (s.proceedCall thread base call calls) := by
  unfold OwnerService.proceedCall
  split
  · have isOwner : thread = owner := by
      by_contra other
      exact (held.foreign other).2 List.mem_cons_self
    have owning := held.own isOwner
    exact ⟨⟨owning.finalizing.trans (owning.entering List.mem_cons_self), trivial⟩, linked,
      (held.pop rfl).push rfl nofun nofun, .refl owner thread s v⟩
  · exact linked.quietly (held.pop rfl) rfl id
  · split
    · rename_i isDone
      exact ⟨⟨linked.done _ isDone, trivial⟩, linked, held.pop rfl, .refl owner thread s v⟩
    · exact linked.stays held
  · exact linked.readies held
  · exact linked.retracts held
  · exact linked.discards held
  · split
    · rename_i past
      have finalized : v.finalized = true := by
        rcases linked.joined (by simpa using past.2) with joining | finalized
        · exact absurd joining past.1
        · exact finalized
      exact linked.leaveStop (held.pop rfl) finalized
    · exact linked.stays held
  · split
    · rename_i exited
      exact linked.joins held exited
    · exact linked.stays held

theorem Linked.step (linked : Linked owner s v) (held : Held owner s v thread task) (move : OwnerMove) :
    Good owner s v thread (s.step thread task move) := by
  obtain ⟨base, calls⟩ := task
  unfold OwnerService.step
  split
  · split
    · exact linked.invoke held _ _
    · exact linked.stays held
  · split
    · exact linked.submit held _ _
    · exact linked.stays held
  · split
    · exact linked.stop held _
    · exact linked.stays held
  · rename_i isCalls
    subst isCalls
    exact linked.endBase held _
  · exact linked.stays held
  · rename_i isCalls
    subst isCalls
    exact linked.proceedBase held _
  · rename_i isCalls
    subst isCalls
    exact linked.proceedCall held

end OwnerService

end EdvrPatch.OpenXr
