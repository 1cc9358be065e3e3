import EdvrPatch.OpenXr.SystemPublication

/-! Runs of the system publication. Whatever a reader gets was published in the
generation that is current, and the geometry is of the sample accepted last. -/
namespace EdvrPatch.OpenXr

open Lib

variable {k : SystemKinds}

namespace SystemEntry

def mark : SystemEntry k → EpochMark
  | .begun _ _ => .opens
  | .retired => .closes
  | _ => .inside

def key : SystemEntry k → Option (UInt64 × UInt64)
  | .accepted input _ _ _ _ => some (input.generation, input.sequence)
  | _ => none

def focus : SystemEntry k → Option (Bool × Bool)
  | .begun _ metadata => some (metadata.focusKnown, metadata.focused)
  | .accepted _ focusKnown focused _ _ => some (focusKnown, focused)
  | _ => none

def sizes : SystemEntry k → Option ((UInt32 × UInt32) × (UInt32 × UInt32))
  | .begun _ metadata =>
    some (gameFacing metadata.recommendedWidth, gameFacing metadata.recommendedHeight)
  | .recommended width height => some (gameFacing width, gameFacing height)
  | _ => none

/-- Whether a frequency is available, the frequency and whether it is an estimate. -/
def displayFrequency : SystemEntry k → Option (Bool × Binary32 × Bool)
  | .begun _ metadata => some (metadata.displayFrequencyAvailable, metadata.displayFrequency,
      metadata.displayFrequencyEstimated)
  | .frequency hz estimated => some (true, hz, estimated)
  | _ => none

def hiddenMasks : SystemEntry k → Option (Option (NativeHiddenMasks k))
  | .begun _ _ => some none
  | .masks published => some published
  | _ => none

def masksCompatible : SystemEntry k → Option Bool
  | .begun _ _ => some true
  | .accepted _ _ _ _ masksCompatible => some masksCompatible
  | _ => none

def session : SystemEntry k → Option (UInt64 × Bool × k.Rest)
  | .begun generation metadata => some (generation, metadata.connected, metadata.rest)
  | _ => none

def calibration : SystemEntry k → Option (SystemOptics k)
  | .accepted input _ _ _ _ => (makeGeometrySnapshot input).map fun snapshot =>
      ⟨input.generation, input.sequence, k.optics snapshot.derived⟩
  | _ => none

/-- The geometry that an accepted sample publishes, with the shift of its frame. -/
def located : SystemEntry k → Option (GeometrySnapshot k × k.Shift)
  | .accepted input _ _ shift _ => (makeGeometrySnapshot input).map fun snapshot =>
      (snapshot, shift.getD k.noShift)
  | _ => none

def bears : SystemEntry k → Option UInt64
  | .begun generation _ => some generation
  | .accepted input _ _ _ _ => some input.generation
  | .masks published => published.map (·.generation)
  | _ => none

end SystemEntry

/-- The entries published since the current generation was begun. -/
def systemEpoch (log : List (SystemEntry k)) : List (SystemEntry k) :=
  currentEpoch SystemEntry.mark log

/-- The generation and the sequence of every sample accepted, oldest first. -/
def systemKeys (log : List (SystemEntry k)) : List (UInt64 × UInt64) :=
  log.filterMap SystemEntry.key

/-- Every part of what a reader gets was published by one of the entries. -/
structure SystemRead.PublishedBy (r : SystemRead k) (entries : List (SystemEntry k)) : Prop where
  session : Publishes entries SystemEntry.session (r.generation, r.connected, r.rest)
  focus : Publishes entries SystemEntry.focus (r.focusKnown, r.focused)
  sizes : Publishes entries SystemEntry.sizes (r.recommendedWidth, r.recommendedHeight)
  displayFrequency : Publishes entries SystemEntry.displayFrequency
    (r.displayFrequencyAvailable, r.displayFrequency, r.displayFrequencyEstimated)
  hiddenMasks : Publishes entries SystemEntry.hiddenMasks r.hiddenMasks
  masksCompatible : Publishes entries SystemEntry.masksCompatible r.hiddenMasksCompatible
  opticsValid : r.opticsValid = r.optics.isSome
  optics : ∀ optics, r.optics = some optics → Publishes entries SystemEntry.calibration optics
  geometryValid : r.geometryValid = r.geometry.isSome
  geometry : ∀ snapshot, r.geometry = some snapshot →
    Publishes entries SystemEntry.located (snapshot, r.tangentShift)
  unshifted : r.geometry = none → r.tangentShift = k.noShift

/-- What the state of a publication has to do with what was published. -/
structure SystemPublication.Linked (p : SystemPublication k) (log : List (SystemEntry k)) :
    Prop where
  closed : p.active = false → systemEpoch log = [] ∧ p.state = {}
  published : p.active = true →
    p.state.generation = p.generation ∧ p.state.PublishedBy (systemEpoch log)
  same : ∀ e ∈ systemEpoch log, ∀ generation ∈ e.bears, generation = p.generation
  rising : (systemKeys log).Pairwise Later
  reached : ∀ key ∈ systemKeys log, key.1 < p.generation ∨ key.1 = p.generation ∧ key.2 ≤ p.sequence
  latest : ∀ snapshot, p.state.geometry = some snapshot →
    (systemKeys log).getLast? = some (snapshot.native.generation, snapshot.native.sequence)

theorem native_of_makeGeometrySnapshot {input : GeometryInput k} {snapshot : GeometrySnapshot k}
    (made : makeGeometrySnapshot input = some snapshot) : snapshot.native = input := by
  unfold makeGeometrySnapshot at made
  split at made
  · cases made
  · obtain ⟨derived, -, rfl⟩ := Option.map_eq_some_iff.mp made
    rfl

namespace SystemRead.PublishedBy

variable {r : SystemRead k} {entries : List (SystemEntry k)}

theorem more (by_ : r.PublishedBy entries) (e : SystemEntry k) : r.PublishedBy (entries ++ [e]) where
  session := by_.session.more e
  focus := by_.focus.more e
  sizes := by_.sizes.more e
  displayFrequency := by_.displayFrequency.more e
  hiddenMasks := by_.hiddenMasks.more e
  masksCompatible := by_.masksCompatible.more e
  opticsValid := by_.opticsValid
  optics := fun optics isOptics => (by_.optics optics isOptics).more e
  geometryValid := by_.geometryValid
  geometry := fun snapshot isGeometry => (by_.geometry snapshot isGeometry).more e
  unshifted := by_.unshifted

theorem withoutGeometry (by_ : r.PublishedBy entries) :
    (SystemPublication.withoutGeometry r).PublishedBy entries :=
  { by_ with
    geometryValid := rfl
    geometry := fun _ isGeometry => nomatch isGeometry
    unshifted := fun _ => rfl }

theorem started (metadata : SystemRead k) (generation : UInt64) :
    (SystemPublication.startingState metadata generation).PublishedBy
      [.begun generation metadata] where
  session := .only rfl
  focus := .only rfl
  sizes := .only rfl
  displayFrequency := .only rfl
  hiddenMasks := .only rfl
  masksCompatible := .only rfl
  opticsValid := rfl
  optics := fun _ isOptics => nomatch isOptics
  geometryValid := rfl
  geometry := fun _ isGeometry => nomatch isGeometry
  unshifted := fun _ => rfl

theorem accepted (by_ : r.PublishedBy entries) (input : GeometryInput k)
    (focusKnown focused : Bool) (shift : Option k.Shift) (masksCompatible : Bool) :
    (SystemPublication.acceptedState r input focusKnown focused shift
      masksCompatible).PublishedBy
      (entries ++ [SystemEntry.accepted input focusKnown focused shift masksCompatible]) := by
  have old := by_.more (.accepted input focusKnown focused shift masksCompatible)
  unfold SystemPublication.acceptedState
  cases made : makeGeometrySnapshot input with
  | none =>
    exact {
      old with
      focus := .last _ rfl
      masksCompatible := .last _ rfl
      geometryValid := rfl
      geometry := fun _ isGeometry => nomatch isGeometry
      unshifted := fun _ => rfl }
  | some snapshot =>
    have isNative := native_of_makeGeometrySnapshot made
    have calibrated : Publishes (entries ++ [SystemEntry.accepted input focusKnown focused shift
        masksCompatible]) SystemEntry.calibration
        ⟨snapshot.native.generation, snapshot.native.sequence, k.optics snapshot.derived⟩ := by
      refine .last _ ?_
      rw [isNative]
      exact congrArg (Option.map _) made
    have optics : ∀ optics, some ⟨snapshot.native.generation, snapshot.native.sequence,
        k.optics snapshot.derived⟩ = some optics → Publishes (entries ++ [SystemEntry.accepted
        input focusKnown focused shift masksCompatible]) SystemEntry.calibration optics := by
      rintro _ ⟨⟩
      exact calibrated
    dsimp only
    split
    · exact {
        old with
        focus := .last _ rfl
        masksCompatible := .last _ rfl
        opticsValid := rfl
        optics := optics
        geometryValid := rfl
        geometry := by
          rintro _ ⟨⟩
          exact .last _ (congrArg (Option.map _) made)
        unshifted := fun gone => nomatch gone }
    · exact {
        old with
        focus := .last _ rfl
        masksCompatible := .last _ rfl
        opticsValid := rfl
        optics := optics
        geometryValid := rfl
        geometry := fun _ isGeometry => nomatch isGeometry
        unshifted := fun _ => rfl }

end SystemRead.PublishedBy

theorem geometry_of_acceptedState {r : SystemRead k} {input : GeometryInput k}
    {focusKnown focused masksCompatible : Bool} {shift : Option k.Shift}
    {snapshot : GeometrySnapshot k}
    (isGeometry : (SystemPublication.acceptedState r input focusKnown focused shift
      masksCompatible).geometry = some snapshot) :
    snapshot.native = input := by
  unfold SystemPublication.acceptedState at isGeometry
  cases made : makeGeometrySnapshot input with
  | none =>
    rw [made] at isGeometry
    cases isGeometry
  | some located =>
    rw [made] at isGeometry
    dsimp only at isGeometry
    split at isGeometry
    · cases isGeometry
      exact native_of_makeGeometrySnapshot made
    · cases isGeometry

theorem generation_of_acceptedState (r : SystemRead k) (input : GeometryInput k)
    (focusKnown focused : Bool) (shift : Option k.Shift) (masksCompatible : Bool) :
    (SystemPublication.acceptedState r input focusKnown focused shift masksCompatible).generation =
      r.generation := by
  unfold SystemPublication.acceptedState
  cases makeGeometrySnapshot input with
  | none => rfl
  | some snapshot =>
    dsimp only
    split <;> rfl

theorem lt_next_generation {generation : UInt64}
    (more : ¬generation = UInt64.ofNat (2 ^ 64 - 1)) : generation < generation + 1 := by
  have below : generation.toNat ≠ 2 ^ 64 - 1 := fun same =>
    more (UInt64.toNat_inj.mp same)
  have size := generation.toNat_lt
  rw [UInt64.lt_iff_toNat_lt, UInt64.toNat_add, UInt64.toNat_one, Nat.mod_eq_of_lt (by omega)]
  omega

namespace SystemPublication.Linked

variable {p : SystemPublication k} {log : List (SystemEntry k)}

theorem init : ({} : SystemPublication k).Linked [] where
  closed := fun _ => ⟨rfl, rfl⟩
  published := fun active => nomatch active
  same := fun _ mem => nomatch mem
  rising := .nil
  reached := fun _ mem => nomatch mem
  latest := fun _ isGeometry => nomatch isGeometry

theorem extend (linked : p.Linked log) (active : p.active = true) {state : SystemRead k}
    {e : SystemEntry k} (inside : e.mark = .inside) (noKey : e.key = none)
    (generation : state.generation = p.generation)
    (bears : ∀ generation ∈ e.bears, generation = p.generation)
    (published : state.PublishedBy (systemEpoch log ++ [e]))
    (geometry : ∀ snapshot, state.geometry = some snapshot → p.state.geometry = some snapshot) :
    ({ p with state := state } : SystemPublication k).Linked (log ++ [e]) := by
  have epoch : systemEpoch (log ++ [e]) = systemEpoch log ++ [e] := currentEpoch_inside _ inside log
  have keys : systemKeys (log ++ [e]) = systemKeys log := by
    rw [systemKeys, List.filterMap_append, List.filterMap_cons_none noKey, List.filterMap_nil,
      List.append_nil]
    rfl
  exact {
    closed := fun closed => absurd (closed.symm.trans active) Bool.false_ne_true
    published := fun _ => ⟨generation, epoch ▸ published⟩
    same := by
      rw [epoch]
      intro old mem
      rcases List.mem_append.mp mem with mem | mem
      · exact linked.same old mem
      · cases List.mem_singleton.mp mem
        exact bears
    rising := keys ▸ linked.rising
    reached := keys ▸ linked.reached
    latest := fun snapshot isGeometry =>
      keys ▸ linked.latest snapshot (geometry snapshot isGeometry) }

theorem begin (linked : p.Linked log) (metadata : SystemRead k) :
    (p.begin metadata).1.Linked (log ++ (p.begin metadata).2) := by
  unfold SystemPublication.begin
  split
  · rwa [List.append_nil]
  rename_i free
  obtain ⟨-, more⟩ := not_or.mp free
  have keys : systemKeys (log ++ [SystemEntry.begun (p.generation + 1) metadata]) = systemKeys log := by
    rw [systemKeys, List.filterMap_append, List.filterMap_cons_none rfl, List.filterMap_nil,
      List.append_nil]
    rfl
  have epoch : systemEpoch (log ++ [SystemEntry.begun (p.generation + 1) metadata]) =
      [.begun (p.generation + 1) metadata] := currentEpoch_opens _ rfl log
  exact {
    closed := fun closed => nomatch closed
    published := by
      intro _
      rw [epoch]
      exact ⟨rfl, .started metadata (p.generation + 1)⟩
    same := by
      rw [epoch]
      rintro e mem
      cases List.mem_singleton.mp mem
      rintro _ ⟨⟩
      rfl
    rising := keys ▸ linked.rising
    reached := by
      rw [keys]
      intro key mem
      refine .inl ?_
      rcases linked.reached key mem with before | ⟨same, -⟩
      · exact UInt64.lt_trans before (lt_next_generation more)
      · rw [same]
        exact lt_next_generation more
    latest := fun _ isGeometry => nomatch isGeometry }

theorem publish (linked : p.Linked log) (input : GeometryInput k) (focusKnown focused : Bool)
    (shift : Option k.Shift) (masksCompatible : Bool) :
    (p.publish input focusKnown focused shift masksCompatible).1.Linked
      (log ++ (p.publish input focusKnown focused shift masksCompatible).2) := by
  unfold SystemPublication.publish
  split
  · rwa [List.append_nil]
  rename_i free
  obtain ⟨active, isCurrent, later⟩ : p.active = true ∧ input.generation = p.generation ∧
      p.sequence < input.sequence := by
    rw [not_or, not_or, not_not, not_not, UInt64.not_le] at free
    exact free
  have keys : systemKeys (log ++ [SystemEntry.accepted input focusKnown focused shift masksCompatible]) =
      systemKeys log ++ [(input.generation, input.sequence)] := by
    rw [systemKeys, List.filterMap_append]
    rfl
  have epoch : systemEpoch (log ++ [SystemEntry.accepted input focusKnown focused shift masksCompatible]) =
      systemEpoch log ++ [SystemEntry.accepted input focusKnown focused shift masksCompatible] :=
    currentEpoch_inside _ rfl log
  obtain ⟨generation, published⟩ := linked.published active
  exact {
    closed := fun closed => absurd (closed.symm.trans active) Bool.false_ne_true
    published := fun _ => ⟨(generation_of_acceptedState ..).trans generation,
      epoch ▸ published.accepted input focusKnown focused shift masksCompatible⟩
    same := by
      rw [epoch]
      intro old mem
      rcases List.mem_append.mp mem with mem | mem
      · exact linked.same old mem
      · cases List.mem_singleton.mp mem
        rintro _ ⟨⟩
        exact isCurrent
    rising := by
      rw [keys, List.pairwise_append]
      refine ⟨linked.rising, List.pairwise_singleton .., fun key mem new isNew => ?_⟩
      cases List.mem_singleton.mp isNew
      rcases linked.reached key mem with before | ⟨same, reached⟩
      · exact .inl (isCurrent ▸ before)
      · exact .inr ⟨same.trans isCurrent.symm, UInt64.lt_of_le_of_lt reached later⟩
    reached := by
      rw [keys]
      intro key mem
      rcases List.mem_append.mp mem with mem | mem
      · refine (linked.reached key mem).imp_right fun ⟨same, reached⟩ => ⟨same, ?_⟩
        exact UInt64.le_of_lt (UInt64.lt_of_le_of_lt reached later)
      · cases List.mem_singleton.mp mem
        exact .inr ⟨isCurrent, UInt64.le_refl _⟩
    latest := by
      intro snapshot isGeometry
      rw [keys, List.getLast?_concat, geometry_of_acceptedState isGeometry] }

theorem invalidate (linked : p.Linked log) (generation : UInt64) :
    (p.invalidate generation).1.Linked (log ++ (p.invalidate generation).2) := by
  unfold SystemPublication.invalidate
  split
  · rename_i live
    obtain ⟨isGeneration, published⟩ := linked.published live.1
    exact linked.extend live.1 rfl rfl isGeneration (fun _ bears => nomatch bears)
      (published.more _).withoutGeometry (fun _ isGeometry => nomatch isGeometry)
  · rwa [List.append_nil]

theorem retire (linked : p.Linked log) (generation : UInt64) :
    (p.retire generation).1.Linked (log ++ (p.retire generation).2) := by
  unfold SystemPublication.retire
  split
  · have keys : systemKeys (log ++ [SystemEntry.retired]) = systemKeys log := by
      rw [systemKeys, List.filterMap_append, List.filterMap_cons_none rfl, List.filterMap_nil,
        List.append_nil]
      rfl
    have epoch : systemEpoch (log ++ [SystemEntry.retired]) = [] := currentEpoch_closes _ rfl log
    exact {
      closed := fun _ => ⟨epoch, rfl⟩
      published := fun active => nomatch active
      same := by
        rw [epoch]
        exact fun _ mem => nomatch mem
      rising := keys ▸ linked.rising
      reached := keys ▸ linked.reached
      latest := fun _ isGeometry => nomatch isGeometry }
  · rwa [List.append_nil]

theorem displayFrequency (linked : p.Linked log) (generation : UInt64) (hz : Binary32)
    (estimated : Bool) :
    (p.displayFrequency generation hz estimated).1.Linked
      (log ++ (p.displayFrequency generation hz estimated).2) := by
  unfold SystemPublication.displayFrequency
  split
  · rwa [List.append_nil]
  split
  · rwa [List.append_nil]
  rename_i live
  have active : p.active = true := not_not.mp (not_or.mp live).1
  obtain ⟨isGeneration, published⟩ := linked.published active
  exact linked.extend active rfl rfl isGeneration (fun _ bears => nomatch bears)
    { published.more (.frequency hz estimated) with displayFrequency := .last _ rfl }
    (fun _ isGeometry => isGeometry)

theorem hiddenMasks (linked : p.Linked log) (generation : UInt64)
    (masks : Option (NativeHiddenMasks k)) :
    (p.hiddenMasks generation masks).1.Linked (log ++ (p.hiddenMasks generation masks).2) := by
  unfold SystemPublication.hiddenMasks
  split
  · rwa [List.append_nil]
  rename_i live
  obtain ⟨active, isCurrent, fits⟩ : p.active = true ∧ generation = p.generation ∧
      ¬masks.any (·.generation != generation) = true := by
    rw [not_or, not_or, not_not, not_not] at live
    exact live
  obtain ⟨isGeneration, published⟩ := linked.published active
  refine linked.extend active rfl rfl isGeneration ?_
    { published.more (.masks masks) with hiddenMasks := .last _ rfl }
    (fun _ isGeometry => isGeometry)
  intro bears isBears
  obtain ⟨mesh, rfl, rfl⟩ := Option.map_eq_some_iff.mp isBears
  rw [Option.any_some, bne_iff_ne, not_not] at fits
  exact fits.trans isCurrent

theorem recommend (linked : p.Linked log) (width height : UInt32 × UInt32) :
    (p.recommend width height).1.Linked (log ++ (p.recommend width height).2) := by
  unfold SystemPublication.recommend
  split
  · rwa [List.append_nil]
  rename_i live
  have active : p.active = true := not_not.mp (not_or.mp live).1
  obtain ⟨isGeneration, published⟩ := linked.published active
  exact linked.extend active rfl rfl isGeneration (fun _ bears => nomatch bears)
    { published.more (.recommended width height) with sizes := .last _ rfl }
    (fun _ isGeometry => isGeometry)

theorem call (linked : p.Linked log) (call : SystemCall k) :
    (p.call call).1.Linked (log ++ (p.call call).2) := by
  cases call with
  | begin metadata => exact linked.begin metadata
  | publish input focusKnown focused shift masksCompatible =>
    exact linked.publish input focusKnown focused shift masksCompatible
  | invalidate generation => exact linked.invalidate generation
  | retire generation => exact linked.retire generation
  | displayFrequency generation hz estimated =>
    exact linked.displayFrequency generation hz estimated
  | hiddenMasks generation masks => exact linked.hiddenMasks generation masks
  | recommend width height => exact linked.recommend width height

end SystemPublication.Linked

def systemRun (calls : List (SystemCall k)) : SystemPublication k × List (SystemEntry k) :=
  traced SystemPublication.call {} calls

theorem systemRun_linked (calls : List (SystemCall k)) :
    (systemRun calls).1.Linked (systemRun calls).2 :=
  traced_induction _ _ .init (fun _ _ call linked => linked.call call) calls

end EdvrPatch.OpenXr
