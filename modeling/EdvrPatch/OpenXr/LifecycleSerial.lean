import EdvrPatch.OpenXr.Lifecycle

/-! What the coordinator promises of the backend over every interleaving of its callers.
At most one of them works on the backend at a time, and the state of the coordinator
says how far it has come. -/
namespace EdvrPatch.OpenXr

open Lib

inductive BackendPhase where
  | idle
  | starting
  | started
  | stopping
  deriving DecidableEq, Repr

/-- `owner` is the caller that works on the backend, `cancelled` says that a shutdown
was called since the last start, `running` that a token was returned and no shutdown
called since, and `fresh` that a start has begun since the last token was returned. -/
structure LifecycleView where
  backend : BackendPhase := .idle
  owner : Option Nat := none
  cancelled : Bool := false
  running : Bool := false
  last : Nat := 0
  fresh : Bool := true
  deriving DecidableEq, Repr

def LifecycleView.release (v : LifecycleView) (thread : Nat) : LifecycleView :=
  if v.owner = some thread then { v with owner := none } else v

/-- A start, its end, a stop and its end follow each other, whoever makes them. A start
that was cancelled gives no token, and an `init` that fails has stopped what it started.
No shutdown returns before the stop it has begun has
ended, or with the backend handed out again. An `init` that finds the backend running returns the
token of the one that started it, and a later start a greater one. -/
def lifecycleProtocol : Monitor LifecycleView LifecycleEvent where
  advance v
    | .startBegan thread _ =>
      { v with backend := .starting, owner := some thread, cancelled := false, fresh := true }
    | .startEnded _ _ => { v with backend := .started }
    | .stopBegan thread => { v with backend := .stopping, owner := some thread }
    | .stopEnded _ _ => { v with backend := .idle }
    | .initReturned thread token _ =>
      let v := v.release thread
      if token = 0 then v else { v with running := true, last := token, fresh := false }
    | .shutdownCalled _ => { v with running := false, cancelled := true }
    | .shutdownReturned thread => v.release thread
    | .interfaceReturned _ _ _ => v
  allows v
    | .startBegan _ attempt => v.backend = .idle ∧ v.owner = none ∧ v.last < attempt
    | .startEnded thread _ => v.backend = .starting ∧ v.owner = some thread
    | .stopBegan _ => v.backend = .started
    | .stopEnded thread _ => v.backend = .stopping ∧ v.owner = some thread
    | .initReturned thread token error =>
      (token = 0 ↔ error ≠ .none) ∧ (token = 0 → v.owner = some thread → v.backend = .idle) ∧
        (token ≠ 0 → v.backend = .started ∧
        (v.fresh = true → v.last < token) ∧ (v.fresh = false → token = v.last ∧ v.running = true) ∧
        (v.owner = some thread → v.cancelled = false))
    | .shutdownCalled _ => True
    | .shutdownReturned thread =>
      v.running = false ∧ (v.owner = some thread → v.backend = .idle)
    | .interfaceReturned _ interface _ => interface ≠ none → v.running = true

namespace RuntimeLifecycle

structure Linked (r : RuntimeLifecycle) (v : LifecycleView) : Prop where
  idle : r.state = .idle ∨ r.state = .failed → v.owner = none ∧ v.backend = .idle
  starting : r.state = .starting → v.owner ≠ none ∧ v.cancelled = false ∧ v.fresh = true ∧ v.last < r.token
  running : r.state = .running →
    v.owner = none ∧ v.backend = .started ∧ v.last = r.token ∧ v.fresh = false ∧ r.token ≠ 0
  stopping : r.state = .stopping → v.owner ≠ none
  flag : v.running = true ↔ r.state = .running
  last : v.last ≤ r.token

def Awaited (r : RuntimeLifecycle) (v : LifecycleView) : Prop :=
  r.state = .starting ∨ (r.state = .stopping ∧ v.cancelled = true)

def Held (r : RuntimeLifecycle) (v : LifecycleView) (thread : Nat) : LifecycleTask → Prop
  | .idle => v.owner ≠ some thread
  | .starting => v.owner = some thread ∧ v.backend = .starting ∧ r.Awaited v
  | .started _ _ => v.owner = some thread ∧ v.backend = .started ∧ r.Awaited v
  | .cleaning result => v.owner = some thread ∧ v.backend = .stopping ∧ r.state = .stopping ∧ result ≠ .none
  | .cleaned result _ => v.owner = some thread ∧ v.backend = .idle ∧ r.state = .stopping ∧ result ≠ .none
  | .stopping => v.owner = some thread ∧ v.backend = .stopping ∧ r.state = .stopping
  | .stopped _ => v.owner = some thread ∧ v.backend = .idle ∧ r.state = .stopping

/-- The outcome of a step is lawful, and what it leads to is known again. -/
def Good (v : LifecycleView) (thread : Nat)
    (o : RuntimeLifecycle × LifecycleTask × List LifecycleEvent) : Prop :=
  lifecycleProtocol.Admits v o.2.2 ∧ o.1.Linked (lifecycleProtocol.after v o.2.2) ∧
    o.1.Held (lifecycleProtocol.after v o.2.2) thread o.2.1

variable {r : RuntimeLifecycle} {v : LifecycleView} {thread : Nat}

theorem Linked.refuses (linked : r.Linked v) (free : v.owner ≠ some thread) {error : InitError}
    (isError : error ≠ .none) : Good v thread (r, .idle, [.initReturned thread 0 error]) := by
  have same : lifecycleProtocol.after v [.initReturned thread 0 error] = v := by
    simp [lifecycleProtocol, LifecycleView.release, free]
  refine ⟨?_, ?_, ?_⟩
  · simp [lifecycleProtocol, isError, free]
  · rw [same]
    exact linked
  · rw [same]
    exact free

theorem Linked.enter (linked : r.Linked v) (free : v.owner ≠ some thread) (scene : Bool) :
    Good v thread (r.enter thread scene) := by
  unfold RuntimeLifecycle.enter
  split
  · exact linked.refuses free nofun
  cases isState : r.state with
  | starting => exact linked.refuses free nofun
  | stopping => exact linked.refuses free nofun
  | failed => exact linked.refuses free nofun
  | running =>
    obtain ⟨owner, backend, last, fresh, positive⟩ := linked.running isState
    have running := linked.flag.mpr isState
    have same : lifecycleProtocol.after v [.initReturned thread r.token .none] = v := by
      cases v
      simp_all [lifecycleProtocol, LifecycleView.release]
    refine ⟨?_, ?_, ?_⟩
    · simp [lifecycleProtocol, positive, backend, fresh, last, running, owner]
    · rw [same]
      exact linked
    · rw [same]
      exact free
  | idle =>
    obtain ⟨owner, backend⟩ := linked.idle (.inl isState)
    have le := linked.last
    dsimp only
    split
    · exact linked.refuses free nofun
    · refine ⟨?_, ⟨?_, ?_, ?_, ?_, ?_, ?_⟩, ?_⟩
      · simp only [lifecycleProtocol, Monitor.admits_cons, Monitor.admits_nil, and_true]
        exact ⟨backend, owner, by omega⟩
      all_goals simp [lifecycleProtocol, Held, Awaited]
      · omega
      · have flag := linked.flag
        rw [isState] at flag
        simpa using flag
      · omega

theorem Linked.settle (linked : r.Linked v) (owner : v.owner = some thread) (backend : v.backend = .started)
    (awaited : r.Awaited v) (result : InitError) (candidate : RuntimeInterfaces) :
    Good v thread (r.settle thread result candidate) := by
  have le := linked.last
  unfold RuntimeLifecycle.settle
  split
  · rename_i fine
    obtain ⟨_, cancelled, fresh, less⟩ := linked.starting fine.1
    refine ⟨?_, ⟨?_, ?_, ?_, ?_, ?_, ?_⟩, ?_⟩
    · simp [lifecycleProtocol, backend, fresh, less, cancelled]
      omega
    all_goals simp [lifecycleProtocol, Held, LifecycleView.release, owner, show r.token ≠ 0 by omega, backend]
  · have notRunning : r.state ≠ .running := by
      intro isRunning
      rcases awaited with isState | ⟨isState, _⟩ <;> rw [isRunning] at isState <;> cases isState
    have flag : v.running = false := by
      simpa using fun on => notRunning (linked.flag.mp on)
    refine ⟨?_, ⟨?_, ?_, ?_, ?_, ?_, ?_⟩, ?_⟩
    · simp [lifecycleProtocol, backend]
    all_goals simp [lifecycleProtocol, Held, flag]
    · exact le
    · split
      · nofun
      · split
        · nofun
        · assumption

theorem Linked.settleStop (linked : r.Linked v) (owner : v.owner = some thread) (backend : v.backend = .idle)
    (stopping : r.state = .stopping) (stopped : Bool) {e : LifecycleEvent}
    (released : lifecycleProtocol.advance v e = v.release thread) (allowed : lifecycleProtocol.allows v e) :
    Good v thread (r.settleStop stopped, .idle, [e]) := by
  have flag : v.running = false := by
    have same := linked.flag
    rw [stopping] at same
    simpa using same
  have le := linked.last
  refine ⟨⟨allowed, trivial⟩, ?_, ?_⟩
  · show (r.settleStop stopped).Linked (lifecycleProtocol.advance v e)
    rw [released]
    cases stopped <;>
      refine ⟨?_, ?_, ?_, ?_, ?_, ?_⟩ <;>
        simp [RuntimeLifecycle.settleStop, LifecycleView.release, owner, backend, flag, le]
  · show (r.settleStop stopped).Held (lifecycleProtocol.advance v e) thread .idle
    rw [released]
    simp [Held, LifecycleView.release, owner]

theorem Linked.shutdown (linked : r.Linked v) (free : v.owner ≠ some thread) :
    Good v thread (r.shutdown thread) := by
  have quiet (settled : r.state ≠ .starting) (off : r.state ≠ .running) :
      Good v thread (r, .idle, [.shutdownCalled thread, .shutdownReturned thread]) := by
    have flag : v.running = false := by simpa using mt linked.flag.mp off
    have same : lifecycleProtocol.after v [.shutdownCalled thread, .shutdownReturned thread] =
        { v with cancelled := true } := by
      cases v
      simp_all [lifecycleProtocol, LifecycleView.release]
    refine ⟨?_, ?_, ?_⟩
    · simp [lifecycleProtocol, free]
    · rw [same]
      exact ⟨linked.idle, fun isStarting => absurd isStarting settled, linked.running, linked.stopping,
        linked.flag, linked.last⟩
    · rw [same]
      exact free
  unfold RuntimeLifecycle.shutdown
  cases isState : r.state with
  | idle => exact quiet (by simp [isState]) (by simp [isState])
  | failed => exact quiet (by simp [isState]) (by simp [isState])
  | stopping => exact quiet (by simp [isState]) (by simp [isState])
  | starting =>
    obtain ⟨owner, _⟩ := linked.starting isState
    refine ⟨?_, ⟨?_, ?_, ?_, ?_, ?_, ?_⟩, ?_⟩
    all_goals simp [lifecycleProtocol, Held, LifecycleView.release, free, owner]
    omega
  | running =>
    obtain ⟨_, backend, _⟩ := linked.running isState
    refine ⟨?_, ⟨?_, ?_, ?_, ?_, ?_, ?_⟩, ?_⟩
    all_goals simp [lifecycleProtocol, Held, backend]
    omega

theorem getInterface_running {version : Option String} (handed : (r.getInterface version).1 ≠ none) :
    r.state = .running := by
  unfold RuntimeLifecycle.getInterface at handed
  split at handed
  · exact absurd rfl handed
  · split at handed
    · exact absurd rfl handed
    · by_contra other
      rw [if_neg other] at handed
      exact handed rfl

variable {task : LifecycleTask}

theorem Linked.stays (linked : r.Linked v) (held : r.Held v thread task) :
    Good v thread (r, task, []) :=
  ⟨trivial, linked, held⟩

theorem Linked.step (linked : r.Linked v) (held : r.Held v thread task) (move : LifecycleMove) :
    Good v thread (r.step thread task move) := by
  unfold RuntimeLifecycle.step
  split
  · exact linked.enter held _
  · exact linked.shutdown held
  · refine ⟨⟨fun handed => ?_, trivial⟩, linked, held⟩
    exact linked.flag.mpr (getInterface_running handed)
  · obtain ⟨owner, backend, awaited⟩ := held
    refine ⟨⟨⟨backend, owner⟩, trivial⟩, ⟨?_, linked.starting, ?_, linked.stopping, linked.flag, linked.last⟩,
      owner, rfl, awaited⟩
    · intro isIdle
      rcases awaited with isState | ⟨isState, _⟩ <;> rw [isState] at isIdle <;> simp at isIdle
    · intro isRunning
      rcases awaited with isState | ⟨isState, _⟩ <;> rw [isState] at isRunning <;> cases isRunning
  · obtain ⟨owner, backend, awaited⟩ := held
    exact linked.settle owner backend awaited _ _
  · obtain ⟨owner, backend, isState, isError⟩ := held
    refine ⟨⟨⟨backend, owner⟩, trivial⟩, ?_, owner, rfl, isState, isError⟩
    exact ⟨fun _ => by simp_all, linked.starting, fun isRunning => by simp_all, linked.stopping, linked.flag,
      linked.last⟩
  · obtain ⟨owner, backend, isState, isError⟩ := held
    refine linked.settleStop owner backend isState _ ?_ ?_
    · simp [lifecycleProtocol]
    · simp [lifecycleProtocol, isError, backend]
  · obtain ⟨owner, backend, isState⟩ := held
    refine ⟨⟨⟨backend, owner⟩, trivial⟩, ?_, owner, rfl, isState⟩
    exact ⟨fun _ => by simp_all, linked.starting, fun isRunning => by simp_all, linked.stopping, linked.flag,
      linked.last⟩
  · obtain ⟨owner, backend, isState⟩ := held
    have flag : v.running = false := by
      have same := linked.flag
      rw [isState] at same
      simpa using same
    exact linked.settleStop owner backend isState _ rfl ⟨flag, fun _ => backend⟩
  · exact linked.stays held

def Busy : LifecycleTask → Prop
  | .idle => False
  | _ => True

theorem Held.owner (held : r.Held v thread task) (busy : Busy task) : v.owner = some thread := by
  cases task with
  | idle => exact busy.elim
  | _ => exact held.1

theorem enter_of_owner (linked : r.Linked v) (owned : v.owner ≠ none) (thread : Nat) (scene : Bool) :
    ∃ error, r.enter thread scene = (r, .idle, [.initReturned thread 0 error]) := by
  unfold RuntimeLifecycle.enter
  split
  · exact ⟨_, rfl⟩
  cases isState : r.state with
  | starting => exact ⟨_, rfl⟩
  | stopping => exact ⟨_, rfl⟩
  | failed => exact ⟨_, rfl⟩
  | running => exact absurd (linked.running isState).1 owned
  | idle => exact absurd (linked.idle (.inl isState)).1 owned

theorem shutdown_of_owner (linked : r.Linked v) (owned : v.owner ≠ none) (thread : Nat) :
    (r.state ≠ .starting ∧
      r.shutdown thread = (r, .idle, [.shutdownCalled thread, .shutdownReturned thread])) ∨
    (r.state = .starting ∧ r.shutdown thread =
      ({ r with state := .stopping, interfaces := {}, token := r.token + 1, cancelled := true }, .idle,
        [.shutdownCalled thread, .shutdownReturned thread])) := by
  unfold RuntimeLifecycle.shutdown
  cases isState : r.state with
  | idle => exact .inl ⟨by decide, rfl⟩
  | failed => exact .inl ⟨by decide, rfl⟩
  | stopping => exact .inl ⟨by decide, rfl⟩
  | starting => exact .inr ⟨rfl, rfl⟩
  | running => exact absurd (linked.running isState).1 owned

end RuntimeLifecycle

def LifecycleEvent.caller : LifecycleEvent → Nat
  | .startBegan thread _ | .startEnded thread _ | .stopBegan thread | .stopEnded thread _
  | .initReturned thread _ _ | .shutdownCalled thread | .shutdownReturned thread
  | .interfaceReturned thread _ _ => thread

namespace RuntimeLifecycle

variable {r : RuntimeLifecycle} {v : LifecycleView} {thread : Nat}

theorem advance_owner (v : LifecycleView) (e : LifecycleEvent) :
    (lifecycleProtocol.advance v e).owner = v.owner ∨ (lifecycleProtocol.advance v e).owner = none ∨
      (lifecycleProtocol.advance v e).owner = some e.caller := by
  have released : ∀ thread, (v.release thread).owner = v.owner ∨ (v.release thread).owner = none := by
    intro thread
    unfold LifecycleView.release
    split
    · exact .inr rfl
    · exact .inl rfl
  cases e with
  | startBegan thread _ => exact .inr (.inr rfl)
  | startEnded thread _ => exact .inl rfl
  | stopBegan thread => exact .inr (.inr rfl)
  | stopEnded thread _ => exact .inl rfl
  | shutdownCalled thread => exact .inl rfl
  | interfaceReturned thread _ _ => exact .inl rfl
  | shutdownReturned thread =>
    rcases released thread with same | none
    · exact .inl same
    · exact .inr (.inl none)
  | initReturned thread token _ =>
    have same : (lifecycleProtocol.advance v (.initReturned thread token ‹_›)).owner =
        (v.release thread).owner := by
      simp only [lifecycleProtocol]
      split <;> rfl
    rw [same]
    rcases released thread with same | none
    · exact .inl same
    · exact .inr (.inl none)

theorem step_caller (r : RuntimeLifecycle) (thread : Nat) (task : LifecycleTask) (move : LifecycleMove) :
    ∀ e ∈ (r.step thread task move).2.2, e.caller = thread := by
  unfold RuntimeLifecycle.step
  split
  · unfold enter
    split
    · simp [LifecycleEvent.caller]
    · split
      · simp [LifecycleEvent.caller]
      · simp [LifecycleEvent.caller]
      · simp [LifecycleEvent.caller]
      · simp [LifecycleEvent.caller]
      · split <;> simp [LifecycleEvent.caller]
  · unfold shutdown
    split <;> simp [LifecycleEvent.caller]
  · simp [LifecycleEvent.caller]
  · simp [LifecycleEvent.caller]
  · unfold settle
    split <;> simp [LifecycleEvent.caller]
  all_goals simp [LifecycleEvent.caller]

theorem after_owner_ne {u : Nat} (apart : u ≠ thread) :
    ∀ (events : List LifecycleEvent) (v : LifecycleView), (∀ e ∈ events, e.caller = thread) →
      v.owner ≠ some u → (lifecycleProtocol.after v events).owner ≠ some u := by
  intro events
  induction events with
  | nil => exact fun _ _ free => free
  | cons e rest ih =>
    intro v mine free
    refine ih _ (fun later mem => mine later (List.mem_cons_of_mem _ mem)) ?_
    rcases advance_owner v e with same | none | some
    · rw [same]
      exact free
    · rw [none]
      nofun
    · rw [some, mine e List.mem_cons_self]
      exact fun same => apart (Option.some.inj same).symm

theorem Linked.stable (linked : r.Linked v) {task : LifecycleTask} (held : r.Held v thread task)
    (move : LifecycleMove) {u : Nat} (apart : u ≠ thread) {other : LifecycleTask} (theirs : r.Held v u other) :
    (r.step thread task move).1.Held (lifecycleProtocol.after v (r.step thread task move).2.2) u other := by
  by_cases busy : Busy other
  · have owner := theirs.owner busy
    have free : task = .idle := by
      cases task with
      | idle => rfl
      | _ => exact absurd (Option.some.inj (held.1.symm.trans owner)).symm apart
    subst free
    have kept : v.release thread = v := if_neg held
    have owned : v.owner ≠ none := by
      rw [owner]
      nofun
    cases move with
    | init scene =>
      obtain ⟨error, same⟩ := enter_of_owner linked owned thread scene
      show (r.enter thread scene).1.Held (lifecycleProtocol.after v (r.enter thread scene).2.2) u other
      rw [same]
      simpa [lifecycleProtocol, kept] using theirs
    | shutdown =>
      show (r.shutdown thread).1.Held (lifecycleProtocol.after v (r.shutdown thread).2.2) u other
      have view : lifecycleProtocol.after v [.shutdownCalled thread, .shutdownReturned thread] =
          { v with running := false, cancelled := true } := if_neg held
      rcases shutdown_of_owner linked owned thread with ⟨settled, same⟩ | ⟨isState, same⟩
      · rw [same, view]
        have awaited (here : r.Awaited v) :
            r.Awaited { v with running := false, cancelled := true } :=
          .inr ⟨(here.resolve_left settled).1, rfl⟩
        cases other with
        | idle => exact busy.elim
        | starting => exact ⟨theirs.1, theirs.2.1, awaited theirs.2.2⟩
        | started _ _ => exact ⟨theirs.1, theirs.2.1, awaited theirs.2.2⟩
        | _ => exact theirs
      · rw [same, view]
        cases other with
        | idle => exact busy.elim
        | starting => exact ⟨theirs.1, theirs.2.1, .inr ⟨rfl, rfl⟩⟩
        | started _ _ => exact ⟨theirs.1, theirs.2.1, .inr ⟨rfl, rfl⟩⟩
        | cleaning _ => exact ⟨theirs.1, theirs.2.1, rfl, theirs.2.2.2⟩
        | cleaned _ _ => exact ⟨theirs.1, theirs.2.1, rfl, theirs.2.2.2⟩
        | stopping => exact ⟨theirs.1, theirs.2.1, rfl⟩
        | stopped _ => exact ⟨theirs.1, theirs.2.1, rfl⟩
    | getInterface version => exact theirs
    | startReturns result candidate => exact theirs
    | stopReturns stopped => exact theirs
    | proceed => exact theirs
  · cases other with
    | idle => exact after_owner_ne apart _ v (step_caller r thread task move) theirs
    | _ => exact absurd trivial busy

end RuntimeLifecycle

end EdvrPatch.OpenXr
