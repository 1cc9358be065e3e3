import EdvrPatch.Lib.Binary32
import EdvrPatch.Lib.Epochs
import EdvrPatch.Lib.Traced

/-! What the runtime's owner publishes for the game's system interface (`system_publication.h`).
Every method runs under the one mutex, so a run of calls is any interleaving of threads. Tracking
samples, matrices and meshes are of any types; the geometry's own arithmetic is a parameter. -/
namespace EdvrPatch.OpenXr

open Lib

/-- `derive` is `makeGeometrySnapshot` past its check of the two numbers, `optics` what
of it stays valid without tracking, and `shiftable` the test of `shiftedRawFov` on both
eyes. `Rest` is what the metadata carries besides. -/
structure SystemKinds where
  Sample : Type
  Derived : Type
  Optics : Type
  Shift : Type
  Mesh : Type
  Rest : Type
  noShift : Shift
  noRest : Rest
  derive : Sample → Option Derived
  optics : Derived → Optics
  shiftable : Derived → Shift → Bool

structure GeometryInput (k : SystemKinds) where
  generation : UInt64
  sequence : UInt64
  sample : k.Sample

structure GeometrySnapshot (k : SystemKinds) where
  native : GeometryInput k
  derived : k.Derived

structure SystemOptics (k : SystemKinds) where
  generation : UInt64
  sequence : UInt64
  optics : k.Optics

structure NativeHiddenMasks (k : SystemKinds) where
  generation : UInt64
  revision : UInt64
  eyes : k.Mesh

/-- A zeroed snapshot and zeroed optics are `none`; sizes are a pair for the two eyes. -/
structure SystemRead (k : SystemKinds) where
  generation : UInt64 := 0
  connected : Bool := false
  geometryValid : Bool := false
  focusKnown : Bool := false
  focused : Bool := false
  opticsValid : Bool := false
  recommendedWidth : UInt32 × UInt32 := (0, 0)
  recommendedHeight : UInt32 × UInt32 := (0, 0)
  geometry : Option (GeometrySnapshot k) := none
  optics : Option (SystemOptics k) := none
  displayFrequencyAvailable : Bool := false
  displayFrequency : Binary32 := 0
  displayFrequencyEstimated : Bool := false
  hiddenMasks : Option (NativeHiddenMasks k) := none
  hiddenMasksCompatible : Bool := true
  tangentShift : k.Shift := k.noShift
  rest : k.Rest := k.noRest

variable {k : SystemKinds}

def makeGeometrySnapshot (input : GeometryInput k) : Option (GeometrySnapshot k) :=
  if input.generation = 0 ∨ input.sequence = 0 then none
  else (k.derive input.sample).map (⟨input, ·⟩)

def gameFacingDimension (value : UInt32) : UInt32 :=
  if value = 0 ∨ value > 16384 then 0 else (value + 1) &&& 0xfffffffe

def gameFacing (sizes : UInt32 × UInt32) : UInt32 × UInt32 :=
  (gameFacingDimension sizes.1, gameFacingDimension sizes.2)

structure SystemPublication (k : SystemKinds) where
  state : SystemRead k := {}
  generation : UInt64 := 0
  sequence : UInt64 := 0
  active : Bool := false

/-- What a call has published; calls that are refused leave no entry. -/
inductive SystemEntry (k : SystemKinds) where
  | begun (generation : UInt64) (metadata : SystemRead k)
  | accepted (input : GeometryInput k) (focusKnown focused : Bool) (shift : Option k.Shift)
      (masksCompatible : Bool)
  | invalidated
  | retired
  | frequency (hz : Binary32) (estimated : Bool)
  | masks (masks : Option (NativeHiddenMasks k))
  | recommended (width height : UInt32 × UInt32)

namespace SystemPublication

def startingState (metadata : SystemRead k) (generation : UInt64) : SystemRead k :=
  { metadata with
    generation := generation, geometry := none, geometryValid := false
    optics := none, opticsValid := false, hiddenMasks := none, hiddenMasksCompatible := true
    recommendedWidth := gameFacing metadata.recommendedWidth
    recommendedHeight := gameFacing metadata.recommendedHeight, tangentShift := k.noShift }

def begin (p : SystemPublication k) (metadata : SystemRead k) :
    SystemPublication k × List (SystemEntry k) :=
  if p.active ∨ p.generation = UInt64.ofNat (2 ^ 64 - 1) then (p, [])
  else
    ({ state := startingState metadata (p.generation + 1), generation := p.generation + 1
       sequence := 0, active := true }, [.begun (p.generation + 1) metadata])

def withoutGeometry (s : SystemRead k) : SystemRead k :=
  { s with geometryValid := false, geometry := none, tangentShift := k.noShift }

/-- The calibration of a valid sample, published whatever becomes of its frame. -/
def withOptics (s : SystemRead k) : Option (GeometrySnapshot k) → SystemRead k
  | none => s
  | some snapshot =>
    { s with
      optics := some ⟨snapshot.native.generation, snapshot.native.sequence,
        k.optics snapshot.derived⟩
      opticsValid := true }

def acceptedState (s : SystemRead k) (input : GeometryInput k) (focusKnown focused : Bool)
    (shift : Option k.Shift) (masksCompatible : Bool) : SystemRead k :=
  let s := withOptics { s with hiddenMasksCompatible := masksCompatible } (makeGeometrySnapshot input)
  let s := { s with
    geometryValid := (makeGeometrySnapshot input).isSome
    focusKnown := focusKnown, focused := focused }
  match makeGeometrySnapshot input with
  | none => withoutGeometry s
  | some snapshot =>
    if shift.all (k.shiftable snapshot.derived) then
      { s with geometry := some snapshot, tangentShift := shift.getD k.noShift }
    else withoutGeometry s

def publish (p : SystemPublication k) (input : GeometryInput k) (focusKnown focused : Bool)
    (shift : Option k.Shift) (masksCompatible : Bool) :
    SystemPublication k × List (SystemEntry k) :=
  if ¬p.active ∨ input.generation ≠ p.generation ∨ input.sequence ≤ p.sequence then (p, [])
  else
    ({ p with
        sequence := input.sequence
        state := acceptedState p.state input focusKnown focused shift masksCompatible },
      [.accepted input focusKnown focused shift masksCompatible])

def invalidate (p : SystemPublication k) (generation : UInt64) :
    SystemPublication k × List (SystemEntry k) :=
  if p.active ∧ generation = p.generation then
    ({ p with state := withoutGeometry p.state }, [.invalidated])
  else (p, [])

def retire (p : SystemPublication k) (generation : UInt64) :
    SystemPublication k × List (SystemEntry k) :=
  if generation = p.generation then ({ p with state := {}, active := false }, [.retired])
  else (p, [])

def displayFrequency (p : SystemPublication k) (generation : UInt64) (hz : Binary32)
    (estimated : Bool) : SystemPublication k × List (SystemEntry k) :=
  if ¬Binary32.isfinite hz ∨ Binary32.less hz 0 ∨ Binary32.equal hz 0 then (p, [])
  else if ¬p.active ∨ generation ≠ p.generation then (p, [])
  else
    ({ p with state := { p.state with
        displayFrequency := hz, displayFrequencyAvailable := true
        displayFrequencyEstimated := estimated } }, [.frequency hz estimated])

def hiddenMasks (p : SystemPublication k) (generation : UInt64)
    (masks : Option (NativeHiddenMasks k)) : SystemPublication k × List (SystemEntry k) :=
  if ¬p.active ∨ generation ≠ p.generation ∨ masks.any (·.generation != generation) then (p, [])
  else ({ p with state := { p.state with hiddenMasks := masks } }, [.masks masks])

def mayRecommend (sizes : UInt32 × UInt32) : Bool :=
  sizes.1 != 0 && sizes.2 != 0 && sizes.1 ≤ 16384 && sizes.2 ≤ 16384

/-- The owner's recommendation bears no generation: it is for the one that is current. -/
def recommend (p : SystemPublication k) (width height : UInt32 × UInt32) :
    SystemPublication k × List (SystemEntry k) :=
  if ¬p.active ∨ ¬mayRecommend width ∨ ¬mayRecommend height then (p, [])
  else
    ({ p with state := { p.state with
        recommendedWidth := gameFacing width, recommendedHeight := gameFacing height } },
      [.recommended width height])

end SystemPublication

inductive SystemCall (k : SystemKinds) where
  | begin (metadata : SystemRead k)
  | publish (input : GeometryInput k) (focusKnown focused : Bool) (shift : Option k.Shift)
      (masksCompatible : Bool)
  | invalidate (generation : UInt64)
  | retire (generation : UInt64)
  | displayFrequency (generation : UInt64) (hz : Binary32) (estimated : Bool)
  | hiddenMasks (generation : UInt64) (masks : Option (NativeHiddenMasks k))
  | recommend (width height : UInt32 × UInt32)

def SystemCall.publishedFor : SystemCall k → Option UInt64
  | .publish input _ _ _ _ => some input.generation
  | .invalidate generation => some generation
  | .displayFrequency generation _ _ => some generation
  | .hiddenMasks generation _ => some generation
  | .begin _ | .retire _ | .recommend _ _ => none

namespace SystemPublication

def call (p : SystemPublication k) : SystemCall k → SystemPublication k × List (SystemEntry k)
  | .begin metadata => p.begin metadata
  | .publish input focusKnown focused shift masksCompatible =>
    p.publish input focusKnown focused shift masksCompatible
  | .invalidate generation => p.invalidate generation
  | .retire generation => p.retire generation
  | .displayFrequency generation hz estimated => p.displayFrequency generation hz estimated
  | .hiddenMasks generation masks => p.hiddenMasks generation masks
  | .recommend width height => p.recommend width height

def read (p : SystemPublication k) : SystemRead k := p.state

def current (p : SystemPublication k) : Option UInt64 :=
  if p.active then some p.generation else none

theorem call_of_stale (p : SystemPublication k) (call : SystemCall k) {generation : UInt64}
    (isFor : call.publishedFor = some generation) (stale : p.current ≠ some generation) :
    p.call call = (p, []) := by
  have gone : ¬(p.active = true ∧ generation = p.generation) := by
    rintro ⟨active, rfl⟩
    exact stale (if_pos active)
  have refused : ¬p.active = true ∨ generation ≠ p.generation := by
    by_contra live
    rw [not_or, not_not, not_not] at live
    exact gone live
  cases call with
  | begin metadata => cases isFor
  | retire _ => cases isFor
  | recommend width height => cases isFor
  | publish input focusKnown focused shift masksCompatible =>
    cases isFor
    exact if_pos (refused.imp_right .inl)
  | invalidate _ =>
    cases isFor
    exact if_neg gone
  | displayFrequency _ hz estimated =>
    cases isFor
    change displayFrequency p _ hz estimated = _
    unfold displayFrequency
    rw [if_pos refused, ite_self]
  | hiddenMasks _ masks =>
    cases isFor
    exact if_pos (refused.imp_right .inl)

end SystemPublication

end EdvrPatch.OpenXr
