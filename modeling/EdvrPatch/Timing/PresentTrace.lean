import Mathlib

/-! The trace of Presents of `native_timing.cpp`, while one context is current: the
table of Presents that have begun, the ring of the last 64 that were noted, and what
is kept of those the ring has lost. Times are compared only and are of any size. -/
namespace EdvrPatch.Timing

structure EdvrNativePresentSpan where
  beginUs : Nat := 0
  realBeginUs : Nat := 0
  realEndUs : Nat := 0
  bodyEndUs : Nat := 0
  endUs : Nat := 0
  thread : Nat := 0
  syncInterval : Nat := 0
  flags : Nat := 0
  result : Int := 0
  deriving DecidableEq, Repr

structure PresentRecord where
  ordinal : UInt64 := 0
  span : EdvrNativePresentSpan := {}
  deriving DecidableEq, Repr

structure ActivePresent where
  token : UInt64 := 0
  beginUs : Nat := 0
  thread : Nat := 0
  deriving DecidableEq, Repr

def kPresentHistoryCapacity : UInt64 := 64

def kActivePresentCapacity : Nat := 16

def kPresentTraceCapacity : Nat := 16

def malformedPresent (s : EdvrNativePresentSpan) : Bool :=
  s.beginUs == 0 || s.endUs == 0 || decide (s.endUs < s.beginUs) ||
    s.realBeginUs == 0 || s.realEndUs == 0 || s.bodyEndUs == 0 ||
    decide (s.realBeginUs < s.beginUs) || decide (s.realEndUs < s.realBeginUs) ||
    decide (s.bodyEndUs < s.realEndUs) || decide (s.endUs < s.bodyEndUs)

structure PresentState where
  device : Nat
  generation : Nat
  presentHistory : Nat → PresentRecord := fun _ => {}
  presentTotalObserved : UInt64 := 0
  presentOverwrittenMaxEndUs : Nat := 0
  presentOverwrittenMalformed : Bool := false
  activePresents : List ActivePresent := List.replicate kActivePresentCapacity {}
  nextPresentToken : UInt64
  activePresentSaturated : Bool := false

def replaceFirst {α : Type} (test : α → Bool) (new : α) : List α → Option (List α)
  | [] => none
  | x :: rest => if test x then some (new :: rest) else (replaceFirst test new rest).map (x :: ·)

def drawToken (next : UInt64) : UInt64 × UInt64 :=
  if next = 0 then (next + 1, next + 2) else (next, next + 1)

def nativeTimingPresentBegin (s : PresentState) (device beginUs thread : Nat) :
    PresentState × UInt64 :=
  if device = 0 ∨ beginUs = 0 ∨ thread = 0 then (s, 0)
  else if s.device ≠ device then (s, 0)
  else
    let (token, next) := drawToken s.nextPresentToken
    match replaceFirst (·.token == 0) ⟨token, beginUs, thread⟩ s.activePresents with
    | some actives => ({ s with activePresents := actives, nextPresentToken := next }, token)
    | none => ({ s with activePresentSaturated := true }, 0)

def historySlot (ordinal : UInt64) : Nat := ((ordinal - 1) % kPresentHistoryCapacity).toNat

/-- A record that is taken the place of leaves its end, or the mark of a malformed span. -/
def overwrite (s : PresentState) (old : PresentRecord) : PresentState :=
  if old.ordinal = 0 then s
  else if malformedPresent old.span then { s with presentOverwrittenMalformed := true }
  else { s with presentOverwrittenMaxEndUs := max s.presentOverwrittenMaxEndUs old.span.endUs }

/-- The end of `nativeTimingNotePresent`: the span goes into the ring. -/
def keepSpan (s : PresentState) (span : EdvrNativePresentSpan) : PresentState :=
  let ordinal := s.presentTotalObserved + 1
  { overwrite s (s.presentHistory (historySlot ordinal)) with
    presentTotalObserved := ordinal
    presentHistory := Function.update s.presentHistory (historySlot ordinal) ⟨ordinal, span⟩ }

def nativeTimingNotePresent (s : PresentState) (device : Nat) (token : UInt64)
    (span : EdvrNativePresentSpan) : PresentState :=
  if device = 0 ∨ token = 0 then s
  else if s.device ≠ device then s
  else
    match replaceFirst (·.token == token) {} s.activePresents with
    | some actives => keepSpan { s with activePresents := actives } span
    | none => s

/-- The spans that are written, of the sixteen there is room for. -/
structure EdvrNativePresentTrace where
  count : Nat
  overflow : Bool
  generation : Nat
  totalObserved : UInt64
  spans : List EdvrNativePresentSpan
  deriving DecidableEq, Repr

def overlapsPresent (span : EdvrNativePresentSpan) (beginUs endUs : Nat) : Bool :=
  decide (beginUs ≤ span.endUs) && decide (span.beginUs ≤ endUs)

/-- A malformed span is left out only where the times it has exclude it. -/
def tracedPresent (span : EdvrNativePresentSpan) (beginUs endUs : Nat) : Bool :=
  if malformedPresent span then
    span.beginUs == 0 || span.endUs == 0 || decide (span.endUs < span.beginUs) ||
      overlapsPresent span beginUs endUs
  else overlapsPresent span beginUs endUs

structure PresentScan where
  overflow : Bool
  overlaps : Nat := 0
  spans : List EdvrNativePresentSpan := []

def PresentScan.visit (s : PresentState) (beginUs endUs : Nat) (scan : PresentScan)
    (ordinal : Nat) : PresentScan :=
  let record := s.presentHistory (historySlot (UInt64.ofNat ordinal))
  if record.ordinal ≠ UInt64.ofNat ordinal then { scan with overflow := true }
  else if !tracedPresent record.span beginUs endUs then scan
  else
    { scan with
      overlaps := scan.overlaps + 1
      spans := if scan.overlaps < kPresentTraceCapacity then scan.spans ++ [record.span]
        else scan.spans }

/-- `given` says that there is a trace of the right size and version, and `live` that the
context is the current one. The loop does not end if the total is the largest word. -/
def edvrReadNativePresentTrace (s : PresentState) (live : Bool) (beginUs endUs : Nat)
    (given : Bool) : Option EdvrNativePresentTrace :=
  if !given || beginUs = 0 || endUs = 0 || endUs < beginUs then none
  else if !live || s.generation = 0 then none
  else
    let lost := s.presentOverwrittenMalformed ||
      decide (beginUs ≤ s.presentOverwrittenMaxEndUs) || s.activePresentSaturated
    let running := s.activePresents.any fun active =>
      active.token != 0 && decide (active.beginUs ≤ endUs)
    let total := s.presentTotalObserved.toNat
    let oldest := if kPresentHistoryCapacity < s.presentTotalObserved then
        (s.presentTotalObserved - kPresentHistoryCapacity + 1).toNat else 1
    let scan := (List.range' oldest (total + 1 - oldest)).foldl
      (PresentScan.visit s beginUs endUs) { overflow := lost || running }
    some
      { count := min scan.overlaps kPresentTraceCapacity
        overflow := scan.overflow || decide (kPresentTraceCapacity < scan.overlaps)
        generation := s.generation
        totalObserved := s.presentTotalObserved
        spans := scan.spans }

inductive PresentCall where
  | begin (device beginUs thread : Nat)
  | note (device : Nat) (token : UInt64) (span : EdvrNativePresentSpan)
  deriving DecidableEq, Repr

/-- A context since it was acquired: the Presents that got a token, with the times they
began at, those that were noted, and the times of those that found no free slot. -/
structure PresentRun where
  state : PresentState
  begun : List (UInt64 × Nat) := []
  noted : List (UInt64 × EdvrNativePresentSpan) := []
  refused : List Nat := []

def PresentRun.step (run : PresentRun) : PresentCall → PresentRun
  | .begin device beginUs thread =>
    let (state, token) := nativeTimingPresentBegin run.state device beginUs thread
    { run with
      state := state
      begun := if token = 0 then run.begun else run.begun ++ [(token, beginUs)]
      refused := if token = 0 ∧ device ≠ 0 ∧ beginUs ≠ 0 ∧ thread ≠ 0 ∧ device = run.state.device
        then run.refused ++ [beginUs] else run.refused }
  | .note device token span =>
    { run with
      state := nativeTimingNotePresent run.state device token span
      noted := if device ≠ 0 ∧ token ≠ 0 ∧ device = run.state.device ∧
          run.state.activePresents.any (·.token == token)
        then run.noted ++ [(token, span)] else run.noted }

/-- What `edvrAcquireNativeTiming` leaves, with the token counter as it was. -/
def acquired (device generation : Nat) (next : UInt64) : PresentRun :=
  { state := { device := device, generation := generation, nextPresentToken := next } }

def presentRun (device generation : Nat) (next : UInt64) (calls : List PresentCall) : PresentRun :=
  calls.foldl PresentRun.step (acquired device generation next)

def PresentRun.Begins (run : PresentRun) : PresentCall → Prop
  | .begin .. => True
  | .note _ token span => ∀ active ∈ run.state.activePresents.find? (·.token == token),
      span.beginUs = active.beginUs

instance decidableBegins (run : PresentRun) : (call : PresentCall) → Decidable (run.Begins call)
  | .begin .. => inferInstanceAs (Decidable True)
  | .note _ token span =>
    inferInstanceAs (Decidable (∀ active ∈ run.state.activePresents.find? (·.token == token),
      span.beginUs = active.beginUs))

def PresentRun.Honest : PresentRun → List PresentCall → Prop
  | _, [] => True
  | run, call :: rest => run.Begins call ∧ (run.step call).Honest rest

instance decidableHonest : (run : PresentRun) → (calls : List PresentCall) →
    Decidable (run.Honest calls)
  | _, [] => inferInstanceAs (Decidable True)
  | run, call :: rest =>
    have := decidableHonest (run.step call) rest
    inferInstanceAs (Decidable (run.Begins call ∧ (run.step call).Honest rest))

end EdvrPatch.Timing
