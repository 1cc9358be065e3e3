import EdvrPatch.OpenXr.SystemReads

/-! The poses that the runtime's owner publishes for the game's compositor interface
(`compositor_publication.h`), and runs of the calls that publish them. -/
namespace EdvrPatch.OpenXr

open Lib

/-- `ETrackingUniverseOrigin`, whose parameter may hold any number. -/
inductive TrackingOrigin where
  | seated
  | standing
  | rawAndUncalibrated
  | unknown (value : Int32)
  deriving DecidableEq, Repr

structure CompositorRead (Pose : Type) [Inhabited Pose] where
  generation : UInt64 := 0
  sequence : UInt64 := 0
  originGeneration : UInt64 := 0
  renderTime : Int64 := 0
  gameTime : Int64 := 0
  origin : TrackingOrigin := .seated
  connected : Bool := false
  posesAvailable : Bool := false
  renderPose : Pose := default
  gamePose : Pose := default
  canRenderKnown : Bool := false
  canRender : Bool := false
  deriving DecidableEq

variable {Pose : Type} [Inhabited Pose]

structure CompositorPublication (Pose : Type) [Inhabited Pose] where
  state : CompositorRead Pose := {}
  generation : UInt64 := 0

/-- What a call has published; calls that are refused leave no entry. -/
inductive CompositorEntry (Pose : Type) [Inhabited Pose] where
  | begun (generation : UInt64) (origin : TrackingOrigin)
  | accepted (candidate : CompositorRead Pose)
  | origin (originGeneration : UInt64) (origin : TrackingOrigin)
  | invalidated
  | focus (known canRender : Bool)
  | retired

def validOrigin : TrackingOrigin → Bool
  | .unknown _ => false
  | _ => true

namespace CompositorPublication

def live (p : CompositorPublication Pose) (generation : UInt64) : Prop :=
  generation ≠ 0 ∧ generation = p.state.generation

instance (p : CompositorPublication Pose) (generation : UInt64) : Decidable (p.live generation) :=
  inferInstanceAs (Decidable (_ ∧ _))

def clearPoses (s : CompositorRead Pose) : CompositorRead Pose :=
  { s with
    posesAvailable := false, renderTime := 0, gameTime := 0
    renderPose := default, gamePose := default }

def begin (p : CompositorPublication Pose) (origin : TrackingOrigin) :
    CompositorPublication Pose × List (CompositorEntry Pose) :=
  if p.state.generation ≠ 0 ∨ p.generation = UInt64.ofNat (2 ^ 64 - 1) ∨ ¬validOrigin origin then
    (p, [])
  else
    ({ state := { generation := p.generation + 1, originGeneration := 1, origin := origin
                  connected := true }
       generation := p.generation + 1 }, [.begun (p.generation + 1) origin])

def publish (p : CompositorPublication Pose) (candidate : CompositorRead Pose) :
    CompositorPublication Pose × List (CompositorEntry Pose) :=
  if ¬p.live candidate.generation ∨ candidate.originGeneration ≠ p.state.originGeneration ∨
      candidate.origin ≠ p.state.origin ∨ candidate.sequence = 0 ∨
      candidate.sequence ≤ p.state.sequence ∨ ¬candidate.posesAvailable ∨
      ¬candidate.connected then (p, [])
  else
    -- The focus comes from its own publication, not from a stale copy of the frame's.
    ({ p with state := { candidate with
        canRenderKnown := p.state.canRenderKnown, canRender := p.state.canRender } },
      [.accepted candidate])

/-- The published origin is replaced, and with it every pose in the old one. -/
def moveOrigin (p : CompositorPublication Pose) (origin : TrackingOrigin) :
    CompositorPublication Pose × List (CompositorEntry Pose) :=
  ({ p with state := clearPoses { p.state with
      originGeneration := p.state.originGeneration + 1, origin := origin } },
    [.origin (p.state.originGeneration + 1) origin])

def changeOrigin (p : CompositorPublication Pose) (generation : UInt64) (origin : TrackingOrigin) :
    CompositorPublication Pose × List (CompositorEntry Pose) :=
  if ¬p.live generation ∨ ¬validOrigin origin then (p, [])
  else if origin = p.state.origin then (p, [])
  else if p.state.originGeneration = UInt64.ofNat (2 ^ 64 - 1) then (p, [])
  else p.moveOrigin origin

def resetOrigin (p : CompositorPublication Pose) (generation : UInt64) :
    CompositorPublication Pose × List (CompositorEntry Pose) :=
  if ¬p.live generation ∨ p.state.originGeneration = UInt64.ofNat (2 ^ 64 - 1) then (p, [])
  else p.moveOrigin p.state.origin

def invalidate (p : CompositorPublication Pose) (generation : UInt64) :
    CompositorPublication Pose × List (CompositorEntry Pose) :=
  if p.live generation then ({ p with state := clearPoses p.state }, [.invalidated]) else (p, [])

def focus (p : CompositorPublication Pose) (generation : UInt64) (known canRender : Bool) :
    CompositorPublication Pose × List (CompositorEntry Pose) :=
  if p.live generation then
    ({ p with state := { p.state with
        canRenderKnown := known, canRender := known && canRender } }, [.focus known canRender])
  else (p, [])

def retire (p : CompositorPublication Pose) (generation : UInt64) :
    CompositorPublication Pose × List (CompositorEntry Pose) :=
  if p.live generation then ({ p with state := {} }, [.retired]) else (p, [])

end CompositorPublication

inductive CompositorCall (Pose : Type) [Inhabited Pose] where
  | begin (origin : TrackingOrigin)
  | publish (candidate : CompositorRead Pose)
  | changeOrigin (generation : UInt64) (origin : TrackingOrigin)
  | resetOrigin (generation : UInt64)
  | invalidate (generation : UInt64)
  | focus (generation : UInt64) (known canRender : Bool)
  | retire (generation : UInt64)

def CompositorCall.publishedFor : CompositorCall Pose → Option UInt64
  | .begin _ => none
  | .publish candidate => some candidate.generation
  | .changeOrigin generation _ => some generation
  | .resetOrigin generation => some generation
  | .invalidate generation => some generation
  | .focus generation _ _ => some generation
  | .retire generation => some generation

namespace CompositorPublication

def call (p : CompositorPublication Pose) :
    CompositorCall Pose → CompositorPublication Pose × List (CompositorEntry Pose)
  | .begin origin => p.begin origin
  | .publish candidate => p.publish candidate
  | .changeOrigin generation origin => p.changeOrigin generation origin
  | .resetOrigin generation => p.resetOrigin generation
  | .invalidate generation => p.invalidate generation
  | .focus generation known canRender => p.focus generation known canRender
  | .retire generation => p.retire generation

def read (p : CompositorPublication Pose) : CompositorRead Pose := p.state

def current (p : CompositorPublication Pose) : Option UInt64 :=
  if p.state.generation = 0 then none else some p.state.generation

theorem call_of_stale (p : CompositorPublication Pose) (call : CompositorCall Pose)
    {generation : UInt64} (isFor : call.publishedFor = some generation)
    (stale : p.current ≠ some generation) :
    p.call call = (p, []) := by
  have gone : ¬p.live generation := by
    rintro ⟨nonzero, rfl⟩
    exact stale (if_neg nonzero)
  cases call with
  | begin origin => cases isFor
  | publish candidate =>
    cases isFor
    exact if_pos (.inl gone)
  | changeOrigin _ origin =>
    cases isFor
    exact if_pos (.inl gone)
  | resetOrigin _ =>
    cases isFor
    exact if_pos (.inl gone)
  | invalidate _ =>
    cases isFor
    exact if_neg gone
  | focus _ known canRender =>
    cases isFor
    exact if_neg gone
  | retire _ =>
    cases isFor
    exact if_neg gone

end CompositorPublication

namespace CompositorEntry

def mark : CompositorEntry Pose → EpochMark
  | .begun _ _ => .opens
  | .retired => .closes
  | _ => .inside

def key : CompositorEntry Pose → Option (UInt64 × UInt64)
  | .accepted candidate => some (candidate.generation, candidate.sequence)
  | _ => none

def bears : CompositorEntry Pose → Option UInt64
  | .begun generation _ => some generation
  | .accepted candidate => some candidate.generation
  | _ => none

def session : CompositorEntry Pose → Option UInt64
  | .begun generation _ => some generation
  | _ => none

/-- The origin that the poses from here on are in, and the generation of that origin. -/
def selected : CompositorEntry Pose → Option (UInt64 × TrackingOrigin)
  | .begun _ first => some (1, first)
  | .origin originGeneration next => some (originGeneration, next)
  | _ => none

def canRender : CompositorEntry Pose → Option (Bool × Bool)
  | .begun _ _ => some (false, false)
  | .focus known canRender => some (known, known && canRender)
  | _ => none

def poses : CompositorEntry Pose → Option (CompositorRead Pose)
  | .accepted candidate => some candidate
  | _ => none

end CompositorEntry

/-- The entries published since the current generation was begun. -/
def compositorEpoch (log : List (CompositorEntry Pose)) : List (CompositorEntry Pose) :=
  currentEpoch CompositorEntry.mark log

/-- The generation and the sequence of all poses accepted, oldest first. -/
def compositorKeys (log : List (CompositorEntry Pose)) : List (UInt64 × UInt64) :=
  log.filterMap CompositorEntry.key

/-- Every part of what a reader gets was published by one of the entries; the poses all by
one, for the origin that is selected. -/
structure CompositorRead.PublishedBy (r : CompositorRead Pose)
    (entries : List (CompositorEntry Pose)) : Prop where
  session : Publishes entries CompositorEntry.session r.generation
  origin : Publishes entries CompositorEntry.selected (r.originGeneration, r.origin)
  connected : r.connected = true
  canRender : Publishes entries CompositorEntry.canRender (r.canRenderKnown, r.canRender)
  poses : r.posesAvailable = true → ∃ known canRender, Publishes entries CompositorEntry.poses
    { r with canRenderKnown := known, canRender := canRender }
  cleared : r.posesAvailable = false → CompositorPublication.clearPoses r = r

/-- What the state of a publication has to do with what was published. -/
structure CompositorPublication.Linked (p : CompositorPublication Pose)
    (log : List (CompositorEntry Pose)) : Prop where
  closed : p.state.generation = 0 → compositorEpoch log = [] ∧ p.state = {}
  published : p.state.generation ≠ 0 →
    p.state.generation = p.generation ∧ p.state.PublishedBy (compositorEpoch log)
  same : ∀ e ∈ compositorEpoch log, ∀ generation ∈ e.bears, generation = p.generation
  rising : (compositorKeys log).Pairwise Later
  reached : ∀ key ∈ compositorKeys log, key.1 < p.generation ∨
    key.1 = p.generation ∧ (p.state.generation ≠ 0 → key.2 ≤ p.state.sequence)
  latest : p.state.posesAvailable = true →
    (compositorKeys log).getLast? = some (p.state.generation, p.state.sequence)

namespace CompositorRead.PublishedBy

variable {r : CompositorRead Pose} {entries : List (CompositorEntry Pose)}

theorem more (by_ : r.PublishedBy entries) (e : CompositorEntry Pose) :
    r.PublishedBy (entries ++ [e]) where
  session := by_.session.more e
  origin := by_.origin.more e
  connected := by_.connected
  canRender := by_.canRender.more e
  poses := fun available => by
    obtain ⟨known, canRender, published⟩ := by_.poses available
    exact ⟨known, canRender, published.more e⟩
  cleared := by_.cleared

theorem clearPoses (by_ : r.PublishedBy entries) :
    (CompositorPublication.clearPoses r).PublishedBy entries :=
  { by_ with
    poses := fun available => nomatch available
    cleared := fun _ => rfl }

end CompositorRead.PublishedBy

namespace CompositorPublication.Linked

variable {p : CompositorPublication Pose} {log : List (CompositorEntry Pose)}

theorem init : ({} : CompositorPublication Pose).Linked [] where
  closed := fun _ => ⟨rfl, rfl⟩
  published := fun live => absurd rfl live
  same := fun _ mem => nomatch mem
  rising := .nil
  reached := fun _ mem => nomatch mem
  latest := fun available => nomatch available

theorem extend (linked : p.Linked log) (live : p.state.generation ≠ 0)
    {state : CompositorRead Pose} {e : CompositorEntry Pose} (inside : e.mark = .inside)
    (noKey : e.key = none) (bearsNone : e.bears = none)
    (generation : state.generation = p.state.generation)
    (sequence : state.sequence = p.state.sequence)
    (published : state.PublishedBy (compositorEpoch log ++ [e]))
    (available : state.posesAvailable = true → p.state.posesAvailable = true) :
    ({ p with state := state } : CompositorPublication Pose).Linked (log ++ [e]) := by
  have epoch : compositorEpoch (log ++ [e]) = compositorEpoch log ++ [e] :=
    currentEpoch_inside _ inside log
  have keys : compositorKeys (log ++ [e]) = compositorKeys log := by
    rw [compositorKeys, List.filterMap_append, List.filterMap_cons_none noKey, List.filterMap_nil,
      List.append_nil]
    rfl
  exact {
    closed := fun closed => absurd (generation.symm.trans closed) live
    published := fun _ => ⟨generation.trans (linked.published live).1, epoch ▸ published⟩
    same := by
      rw [epoch]
      intro old mem
      rcases List.mem_append.mp mem with mem | mem
      · exact linked.same old mem
      · cases List.mem_singleton.mp mem
        rw [bearsNone]
        exact fun _ isBears => nomatch isBears
    rising := keys ▸ linked.rising
    reached := by
      rw [keys]
      intro key mem
      refine (linked.reached key mem).imp_right fun ⟨same, reached⟩ => ⟨same, fun _ => ?_⟩
      rw [sequence]
      exact reached live
    latest := by
      rw [keys, generation, sequence]
      exact fun isAvailable => linked.latest (available isAvailable) }

theorem begin (linked : p.Linked log) (origin : TrackingOrigin) :
    (p.begin origin).1.Linked (log ++ (p.begin origin).2) := by
  unfold CompositorPublication.begin
  split
  · rwa [List.append_nil]
  rename_i free
  obtain ⟨-, more, -⟩ := not_or.mp free |>.imp_right not_or.mp
  have keys : compositorKeys (log ++ [CompositorEntry.begun (p.generation + 1) origin]) = compositorKeys log := by
    rw [compositorKeys, List.filterMap_append, List.filterMap_cons_none rfl, List.filterMap_nil,
      List.append_nil]
    rfl
  have epoch : compositorEpoch (log ++ [CompositorEntry.begun (p.generation + 1) origin]) =
      [.begun (p.generation + 1) origin] := currentEpoch_opens _ rfl log
  have later := lt_next_generation more
  have nonzero : p.generation + 1 ≠ 0 := by
    intro zero
    rw [zero] at later
    exact absurd later (UInt64.not_lt_zero)
  exact {
    closed := fun closed => absurd closed nonzero
    published := by
      intro _
      rw [epoch]
      exact ⟨rfl, {
        session := .only rfl
        origin := .only rfl
        connected := rfl
        canRender := .only rfl
        poses := fun available => nomatch available
        cleared := fun _ => rfl }⟩
    same := by
      rw [epoch]
      rintro e mem
      cases List.mem_singleton.mp mem
      rintro _ ⟨⟩
      rfl
    rising := keys ▸ linked.rising
    reached := by
      rw [keys]
      intro key mem
      refine .inl ?_
      rcases linked.reached key mem with before | ⟨same, -⟩
      · exact UInt64.lt_trans before later
      · rw [same]
        exact later
    latest := fun available => nomatch available }

theorem publish (linked : p.Linked log) (candidate : CompositorRead Pose) :
    (p.publish candidate).1.Linked (log ++ (p.publish candidate).2) := by
  unfold CompositorPublication.publish
  split
  · rwa [List.append_nil]
  rename_i free
  obtain ⟨⟨nonzero, isCurrent⟩, sameOrigin, origin, -, later, available, connected⟩ :
      p.live candidate.generation ∧ candidate.originGeneration = p.state.originGeneration ∧
      candidate.origin = p.state.origin ∧ candidate.sequence ≠ 0 ∧
      p.state.sequence < candidate.sequence ∧ candidate.posesAvailable = true ∧
      candidate.connected = true := by
    simp only [not_or, not_not, UInt64.not_le, ne_eq] at free
    exact free
  have live : p.state.generation ≠ 0 := isCurrent ▸ nonzero
  have keys : compositorKeys (log ++ [CompositorEntry.accepted candidate]) =
      compositorKeys log ++ [(candidate.generation, candidate.sequence)] := by
    rw [compositorKeys, List.filterMap_append]
    rfl
  have epoch : compositorEpoch (log ++ [CompositorEntry.accepted candidate]) =
      compositorEpoch log ++ [CompositorEntry.accepted candidate] := currentEpoch_inside _ rfl log
  obtain ⟨generation, published⟩ := linked.published live
  have same : candidate.generation = p.generation := isCurrent.trans generation
  exact {
    closed := fun closed => absurd closed nonzero
    published := by
      intro _
      rw [epoch]
      have old := published.more (.accepted candidate)
      exact ⟨same, {
        session := isCurrent ▸ old.session
        origin := sameOrigin ▸ origin ▸ old.origin
        connected := connected
        canRender := old.canRender
        poses := fun _ => ⟨candidate.canRenderKnown, candidate.canRender, .last _ rfl⟩
        cleared := fun gone => absurd (gone.symm.trans available) Bool.false_ne_true }⟩
    same := by
      rw [epoch]
      intro old mem
      rcases List.mem_append.mp mem with mem | mem
      · exact linked.same old mem
      · cases List.mem_singleton.mp mem
        rintro _ ⟨⟩
        exact same
    rising := by
      rw [keys, List.pairwise_append]
      refine ⟨linked.rising, List.pairwise_singleton .., fun key mem new isNew => ?_⟩
      cases List.mem_singleton.mp isNew
      rcases linked.reached key mem with before | ⟨sameKey, reached⟩
      · exact .inl (same ▸ before)
      · exact .inr ⟨sameKey.trans same.symm, UInt64.lt_of_le_of_lt (reached live) later⟩
    reached := by
      rw [keys]
      intro key mem
      rcases List.mem_append.mp mem with mem | mem
      · refine (linked.reached key mem).imp_right fun ⟨same, reached⟩ => ⟨same, fun _ => ?_⟩
        exact UInt64.le_of_lt (UInt64.lt_of_le_of_lt (reached live) later)
      · cases List.mem_singleton.mp mem
        exact .inr ⟨same, fun _ => UInt64.le_refl _⟩
    latest := by
      intro _
      rw [keys, List.getLast?_concat] }

theorem moveOrigin (linked : p.Linked log) (live : p.state.generation ≠ 0)
    (origin : TrackingOrigin) :
    (p.moveOrigin origin).1.Linked (log ++ (p.moveOrigin origin).2) := by
  obtain ⟨-, published⟩ := linked.published live
  have old := published.more (.origin (p.state.originGeneration + 1) origin)
  exact linked.extend live rfl rfl rfl rfl rfl
    { old.clearPoses with origin := .last _ rfl, cleared := fun _ => rfl
                          poses := fun available => nomatch available }
    (fun available => nomatch available)

theorem call (linked : p.Linked log) (call : CompositorCall Pose) :
    (p.call call).1.Linked (log ++ (p.call call).2) := by
  have nothing : p.Linked (log ++ []) := by
    rwa [List.append_nil]
  cases call with
  | begin origin => exact linked.begin origin
  | publish candidate => exact linked.publish candidate
  | changeOrigin generation origin =>
    change (p.changeOrigin generation origin).1.Linked (log ++ (p.changeOrigin generation origin).2)
    unfold changeOrigin
    split
    · exact nothing
    rename_i free
    obtain ⟨nonzero, isCurrent⟩ := not_not.mp (not_or.mp free).1
    split
    · exact nothing
    split
    · exact nothing
    · exact linked.moveOrigin (isCurrent ▸ nonzero) origin
  | resetOrigin generation =>
    change (p.resetOrigin generation).1.Linked (log ++ (p.resetOrigin generation).2)
    unfold resetOrigin
    split
    · exact nothing
    rename_i free
    obtain ⟨nonzero, isCurrent⟩ := not_not.mp (not_or.mp free).1
    exact linked.moveOrigin (isCurrent ▸ nonzero) p.state.origin
  | invalidate generation =>
    change (p.invalidate generation).1.Linked (log ++ (p.invalidate generation).2)
    unfold invalidate
    split
    · rename_i isLive
      have live : p.state.generation ≠ 0 := isLive.2 ▸ isLive.1
      exact linked.extend live rfl rfl rfl rfl rfl
        ((linked.published live).2.more .invalidated).clearPoses (fun available => nomatch available)
    · exact nothing
  | focus generation known canRender =>
    change (p.focus generation known canRender).1.Linked
      (log ++ (p.focus generation known canRender).2)
    unfold focus
    split
    · rename_i isLive
      have live : p.state.generation ≠ 0 := isLive.2 ▸ isLive.1
      have old := (linked.published live).2.more (.focus known canRender)
      refine linked.extend live rfl rfl rfl rfl rfl
        { old with canRender := .last _ rfl, cleared := fun gone => ?_ } (fun available => available)
      exact congrArg (fun r : CompositorRead Pose =>
        { r with canRenderKnown := known, canRender := known && canRender }) (old.cleared gone)
    · exact nothing
  | retire generation =>
    change (p.retire generation).1.Linked (log ++ (p.retire generation).2)
    unfold retire
    split
    · have keys : compositorKeys (log ++ [CompositorEntry.retired]) = compositorKeys log := by
        rw [compositorKeys, List.filterMap_append, List.filterMap_cons_none rfl,
          List.filterMap_nil, List.append_nil]
        rfl
      have epoch : compositorEpoch (log ++ [CompositorEntry.retired]) = [] :=
        currentEpoch_closes _ rfl log
      exact {
        closed := fun _ => ⟨epoch, rfl⟩
        published := fun live => absurd rfl live
        same := by
          rw [epoch]
          exact fun _ mem => nomatch mem
        rising := keys ▸ linked.rising
        reached := by
          rw [keys]
          intro key mem
          exact (linked.reached key mem).imp_right fun ⟨same, _⟩ =>
            ⟨same, fun live => absurd rfl live⟩
        latest := fun available => nomatch available }
    · exact nothing

end CompositorPublication.Linked

def compositorRun (calls : List (CompositorCall Pose)) :
    CompositorPublication Pose × List (CompositorEntry Pose) :=
  traced CompositorPublication.call {} calls

theorem compositorRun_linked (calls : List (CompositorCall Pose)) :
    (compositorRun calls).1.Linked (compositorRun calls).2 :=
  traced_induction _ _ .init (fun _ _ call linked => linked.call call) calls

end EdvrPatch.OpenXr
