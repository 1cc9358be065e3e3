import EdvrPatch.OpenXr.ResetEvents

/-! What the readers of the two publications and of the reset events get, whatever was
called before and in whatever order. -/
namespace EdvrPatch.OpenXr

open Lib

/-- No system state of one generation reaches a reader in another. -/
structure SystemPublication.Unmixed {k : SystemKinds} (p : SystemPublication k)
    (log : List (SystemEntry k)) : Prop where
  rising : (systemKeys log).Pairwise Later
  stale : ∀ call generation, call.publishedFor = some generation → p.current ≠ some generation →
    p.call call = (p, [])
  retired : p.current = none → p.read = {}
  reads : ∀ generation, p.current = some generation → p.read.generation = generation ∧
    p.read.PublishedBy (systemEpoch log) ∧
    ∀ e ∈ systemEpoch log, ∀ bears ∈ e.bears, bears = generation
  geometry : p.read.geometryValid = true → ∃ snapshot, p.read.geometry = some snapshot ∧
    p.current = some snapshot.native.generation ∧
    (systemKeys log).getLast? = some (snapshot.native.generation, snapshot.native.sequence)

structure CompositorPublication.Unmixed {Pose : Type} [Inhabited Pose]
    (p : CompositorPublication Pose) (log : List (CompositorEntry Pose)) : Prop where
  rising : (compositorKeys log).Pairwise Later
  stale : ∀ call generation, call.publishedFor = some generation → p.current ≠ some generation →
    p.call call = (p, [])
  retired : p.current = none → p.read = {}
  reads : ∀ generation, p.current = some generation → p.read.generation = generation ∧
    p.read.PublishedBy (compositorEpoch log) ∧
    ∀ e ∈ compositorEpoch log, ∀ bears ∈ e.bears, bears = generation
  poses : p.read.posesAvailable = true →
    (compositorKeys log).getLast? = some (p.read.generation, p.read.sequence)

/-- No event of one generation reaches a reader in another, and none reaches it twice. -/
structure ResetEvents.Unmixed {Pose : Type} (invalid : Pose) (q : ResetEvents Pose)
    (log : List (ResetEntry Pose)) : Prop where
  stale : ∀ call generation, call.isFor = some generation → q.current ≠ some generation →
    q.call invalid call = (q, [])
  retired : q.current = none → resetEpoch log = []
  entries : ∀ e ∈ resetEpoch log, ∀ bears ∈ e.bears, bears = q.generation
  taken : (resetEpoch log).filterMap ResetEntry.poppedItem <+:
    (resetEpoch log).filterMap ResetEntry.pushedItem
  given : ∀ call generation item event, .popped generation item event ∈ (q.call invalid call).2 →
    q.items.head? = some item ∧ ∃ originGeneration origin nowMs,
      call = .pop generation originGeneration origin nowMs ∧
        event = eventOf invalid item originGeneration origin nowMs

theorem SystemPublication.Linked.unmixed {k : SystemKinds} {p : SystemPublication k}
    {log : List (SystemEntry k)} (linked : p.Linked log) : p.Unmixed log := by
  have currentOf : ∀ generation, p.current = some generation →
      p.active = true ∧ p.generation = generation := by
    intro generation isCurrent
    obtain ⟨active, same⟩ := Option.ite_none_right_eq_some.mp isCurrent
    exact ⟨active, Option.some.inj same⟩
  refine ⟨linked.rising, fun call _ => p.call_of_stale call, ?_, ?_, ?_⟩
  · intro none
    refine (linked.closed ?_).2
    cases active : p.active with
    | false => rfl
    | true => exact absurd ((if_pos active).symm.trans none) (Option.some_ne_none _)
  · intro generation isCurrent
    obtain ⟨active, rfl⟩ := currentOf generation isCurrent
    obtain ⟨isGeneration, published⟩ := linked.published active
    exact ⟨isGeneration, published, linked.same⟩
  · intro valid
    have active : p.active = true := by
      by_contra inactive
      have zeroed := (linked.closed (Bool.eq_false_iff.mpr inactive)).2
      rw [read, zeroed] at valid
      cases valid
    obtain ⟨_, published⟩ := linked.published active
    obtain ⟨snapshot, isGeometry⟩ := Option.isSome_iff_exists.mp
      (published.geometryValid.symm.trans valid)
    obtain ⟨e, mem, located⟩ := published.geometry snapshot isGeometry
    refine ⟨snapshot, isGeometry, ?_, linked.latest snapshot isGeometry⟩
    have same : snapshot.native.generation = p.generation := by
      cases e with
      | accepted input _ _ shift _ =>
        obtain ⟨made, isMade, isPair⟩ := Option.map_eq_some_iff.mp located
        cases (congrArg Prod.fst isPair : made = snapshot)
        rw [native_of_makeGeometrySnapshot isMade]
        exact linked.same _ mem _ rfl
      | _ => cases located
    exact same ▸ if_pos active

theorem CompositorPublication.Linked.unmixed {Pose : Type} [Inhabited Pose]
    {p : CompositorPublication Pose} {log : List (CompositorEntry Pose)} (linked : p.Linked log) :
    p.Unmixed log := by
  refine ⟨linked.rising, fun call _ => p.call_of_stale call, ?_, ?_, linked.latest⟩
  · intro none
    refine (linked.closed ?_).2
    by_contra live
    exact absurd ((if_neg live).symm.trans none) (Option.some_ne_none _)
  · intro generation isCurrent
    obtain ⟨live, same⟩ := Option.ite_none_left_eq_some.mp isCurrent
    cases Option.some.inj same
    obtain ⟨isGeneration, published⟩ := linked.published live
    exact ⟨rfl, published, isGeneration ▸ linked.same⟩

theorem ResetEvents.Linked.unmixed {Pose : Type} {invalid : Pose} {q : ResetEvents Pose}
    {log : List (ResetEntry Pose)} (linked : q.Linked log) : q.Unmixed invalid log := by
  refine ⟨fun call _ => q.call_of_stale invalid call, ?_, linked.same,
    ⟨q.items, linked.queued.symm⟩, fun call _ _ _ => q.mem_call_popped invalid call⟩
  intro none
  refine linked.closed ?_
  by_contra live
  exact absurd ((if_neg live).symm.trans none) (Option.some_ne_none _)

/-- Within a generation the sequences rise, and each generation is later than those before
it; nothing of a generation is read in another. -/
theorem published_state_never_mixes_generations {k : SystemKinds} {Pose : Type} [Inhabited Pose]
    (invalid : Pose) (system : List (SystemCall k)) (compositor : List (CompositorCall Pose))
    (resets : List (ResetCall Pose)) :
    (systemRun system).1.Unmixed (systemRun system).2 ∧
    (compositorRun compositor).1.Unmixed (compositorRun compositor).2 ∧
    (resetRun invalid resets).1.Unmixed invalid (resetRun invalid resets).2 :=
  ⟨(systemRun_linked system).unmixed, (compositorRun_linked compositor).unmixed,
    (resetRun_linked invalid resets).unmixed⟩

def plainKinds : SystemKinds where
  Sample := Unit
  Derived := Unit
  Optics := Unit
  Shift := Unit
  Mesh := Unit
  Rest := Unit
  noShift := ()
  noRest := ()
  derive := some
  optics := id
  shiftable := fun _ _ => true

/-- A generation is retired and the next begun between two samples. -/
def restartedCalls : List (SystemCall plainKinds) :=
  [.begin {}, .publish ⟨1, 5, ()⟩ true true none true, .retire 1,
    .begin {}, .publish ⟨2, 1, ()⟩ true true none true]

/-- The sequence that is published starts again in each generation. -/
theorem published_sequence_starts_again :
    ¬∀ calls : List (SystemCall plainKinds),
      ((systemKeys (systemRun calls).2).map Prod.snd).Pairwise (· < ·) := by
  intro rising
  have keys : systemKeys (systemRun restartedCalls).2 = [(1, 5), (2, 1)] := rfl
  have sorted := rising restartedCalls
  rw [keys] at sorted
  exact absurd sorted (by decide)

end EdvrPatch.OpenXr
