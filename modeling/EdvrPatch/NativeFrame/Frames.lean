import EdvrPatch.Lib.Traced

/-! The native frame of `native_frame.cpp` and the marks of `frame_flag.cpp` that it reads
and writes. A context is named by its place in the pool, so that a number past the pool is
any other pointer. What a begin works out for its caller from the settings (offsets, cull,
trims, pacing) goes back with the output alone and is left out, but for the transition. -/
namespace EdvrPatch.NativeFrame

def kPoolSize : Nat := 16

/-- `mapped` says that the shared block is there. Without it nothing is read or written. -/
structure Marks where
  mapped : Bool := true
  flag : Bool := false
  consumer : Bool := false
  jumpVerdict : UInt32 := 0
  holdFrames : Int := 0
  cullGuard : UInt32 := 0
  headForward : UInt32 := 0
  headPoseSeq : UInt32 := 0
  headPoseM : Fin 12 → Float32 := fun _ => 0

namespace Marks

def put (m : Marks) (write : Marks → Marks) : Marks := if m.mapped then write m else m

def glitchFrameMarked (m : Marks) : Bool := m.mapped && m.flag

def clearGlitchFrame (m : Marks) : Marks := m.put fun s => { s with flag := false }

def announceGlitchConsumer (m : Marks) : Marks := m.put fun s => { s with consumer := true }

def retireGlitchConsumer (m : Marks) : Marks := m.put fun s => { s with consumer := false }

def jumpVerdictPacked (m : Marks) : UInt32 := if m.mapped then m.jumpVerdict else 0

def takeSubmitHoldFrame (m : Marks) : Marks × Bool :=
  if ¬m.mapped ∨ m.holdFrames ≤ 0 then (m, false)
  else ({ m with holdFrames := m.holdFrames - 1 }, true)

def perMille (factor : Float32) : UInt32 :=
  if ¬1.0 < factor then 0
  else
    let pm := (factor - 1.0) * 1000.0 + 0.5
    if 4095.0 ≤ pm then 4095 else pm.toUInt32

def announceCullGuardState (m : Marks) (stage : UInt32) (factorH factorV : Float32) : Marks :=
  m.put fun s => { s with
    cullGuard := if stage = 0 then 0
      else ((if 2 < stage then 2 else stage) <<< 24) ||| (perMille factorH <<< 12) ||| perMille factorV }

def publishHeadPose (m : Marks) (m12 : Fin 12 → Float32) : Marks :=
  m.put fun s => { s with headPoseM := m12, headPoseSeq := s.headPoseSeq + 1 }

/-- Fifteen bits of a tangent. What is no number lands on the lower bound. -/
def biased (t : Float32) : UInt32 :=
  let c := if ¬(-3.0) < t then -3.0 else t
  let c := if ¬c < 3.0 then 3.0 else c
  ((c * 1000.0).toInt32 + 16384).toUInt32 &&& 0x7fff

def announceHeadForward (m : Marks) (tx ty : Float32) : Marks :=
  m.put fun s => { s with headForward := (0x80000000 : UInt32) ||| (biased tx <<< 15) ||| biased ty }

end Marks

structure Header where
  size : UInt32
  version : UInt32
  deriving DecidableEq, Repr

/-- The sizes of the records as they cross the boundary of the library. -/
def requestHeader : Header := ⟨24, 1⟩
def tableHeader : Header := ⟨56, 1⟩
def inputHeader : Header := ⟨88, 1⟩
def decisionHeader : Header := ⟨20, 1⟩

def outputHeaders : List Header := [⟨148, 4⟩, ⟨144, 3⟩, ⟨140, 2⟩, ⟨128, 1⟩]

structure GameDevice where
  pointer : Nat
  /-- It answers for its identity. -/
  queried : Bool
  removed : Bool

structure NativeFrameRequest where
  header : Header
  gameDevice : Option GameDevice
  generation : UInt64

structure NativeFrameInput where
  header : Header
  generation : UInt64
  referenceGeneration : UInt64
  sequence : UInt64
  physicalHead : Fin 12 → Float32
  valid : UInt32

structure NativeFrameDecision where
  header : Header := ⟨0, 0⟩
  withhold : Bool := false
  jumpOnly : Bool := false
  verdict : UInt32 := 0
  deriving DecidableEq, Repr

def rowProduct (m : Fin 12 → Float32) (a b : Fin 3) : Float32 :=
  let entry := fun (r : Fin 3) (c : Fin 3) => m ⟨r * 4 + c, by omega⟩
  (List.finRange 3).foldl (fun sum c => sum + entry a c * entry b c) 0.0

def rigidPose (m : Fin 12 → Float32) : Bool :=
  let kTolerance : Float32 := 0.0025
  let determinant := m 0 * (m 5 * m 10 - m 6 * m 9) - m 1 * (m 4 * m 10 - m 6 * m 8) +
    m 2 * (m 4 * m 9 - m 5 * m 8)
  (List.finRange 12).all (fun i => (m i).isFinite) &&
    (List.finRange 3).all (fun r => !decide (kTolerance < (rowProduct m r r - 1.0).abs)) &&
    (List.finRange 3).all (fun a => (List.finRange 3).all fun b =>
      !decide (a < b) || !decide (kTolerance < (rowProduct m a b).abs)) &&
    decide ((determinant - 1.0).abs ≤ 0.004)

structure State where
  device : Option Nat := none
  generation : UInt64 := 0
  sequenceFloor : UInt64 := 0
  active : Bool := false
  invalidated : Bool := false
  began : Bool := false
  latched : Bool := false
  consumerAnnounced : Bool := false
  held : Bool := false
  transitionEnabled : Bool := true
  beginCount : UInt32 := 0
  latchCount : UInt32 := 0
  invalidationCount : UInt32 := 0
  cachedDecision : NativeFrameDecision := {}

/-- The process: the contexts handed out so far, the current one, and the marks. -/
structure World where
  pool : List State := []
  current : Option Nat := none
  marks : Marks := {}

inductive HResult where
  | ok | false | invalidArg | pending
  deriving DecidableEq, Repr

/-- What has come of a call that succeeded. A latch says whether it has taken a hold. -/
inductive FrameEvent where
  | acquired (c : Nat)
  | begun (c : Nat) (sequence : UInt64)
  | latched (c : Nat) (sequence : UInt64) (decision : NativeFrameDecision) (took : Bool)
  | invalidated (c : Nat)
  | closed (c : Nat)
  deriving DecidableEq, Repr

structure Reply where
  world : World
  hr : HResult
  events : List FrameEvent := []

namespace World

variable (w : World)

def identify (context : Nat) : Option State := w.pool[context]?

def setState (c : Nat) (state : State) : World := { w with pool := w.pool.set c state }

/-- The state of the context, where it is the current one and active. -/
def live (context : Nat) : Option State :=
  (w.identify context).filter fun state => decide (w.current = some context) && state.active

def refused (hr : HResult := .invalidArg) : Reply := { world := w, hr := hr }

def edvrAcquireNativeFrame (request : Option NativeFrameRequest) (table : Option Header) : Reply :=
  if table ≠ some tableHeader then w.refused
  else
    match request with
    | none => w.refused
    | some request =>
      match request.gameDevice with
      | none => w.refused
      | some device =>
        if request.header ≠ requestHeader ∨ request.generation = 0 ∨ ¬device.queried ∨ device.removed then
          w.refused
        else if w.current.isSome ∨ w.pool.length = kPoolSize then w.refused .pending
        else
          { world := { w with
              pool := w.pool ++ [{ device := some device.pointer, generation := request.generation, active := true }]
              current := some w.pool.length }
            hr := .ok
            events := [.acquired w.pool.length] }

def beginAllowed (state : State) (input : NativeFrameInput) (output : Header) : Bool :=
  decide (input.header = inputHeader) && outputHeaders.contains output &&
    decide (input.generation = state.generation) && decide (input.referenceGeneration ≠ 0) &&
    decide (input.sequence ≠ 0) && decide (state.sequenceFloor < input.sequence) &&
    decide (input.valid ≤ 1) && (decide (input.valid = 0) || rigidPose input.physicalHead)

/-- The frame is begun in the context: a hold stays for the latch that shows the pair. -/
def beginState (state : State) (sequence : UInt64) (transitionFlash : Bool) : State :=
  { state with
    held := false, transitionEnabled := transitionFlash, sequenceFloor := sequence
    invalidated := false, began := true, latched := false, cachedDecision := {}
    beginCount := state.beginCount + 1 }

def announcePose (m : Marks) (input : NativeFrameInput) : Marks :=
  if input.valid = 0 then m
  else
    let head := input.physicalHead
    let denominator := if head 10 < 0.05 then 0.05 else head 10
    (m.publishHeadPose head).announceHeadForward (-(head 8) / denominator) (-(head 9) / denominator)

def beginFrame (context : Nat) (input : Option NativeFrameInput) (output : Option Header)
    (transitionFlash : Bool) : Reply :=
  match w.live context, input, output with
  | some state, some input, some output =>
    if ¬beginAllowed state input output then w.refused
    else
      { world := { w.setState context (beginState state input.sequence transitionFlash) with
          marks := (announcePose w.marks input).clearGlitchFrame }
        hr := .ok
        events := [.begun context input.sequence] }
  | _, _, _ => w.refused

def setCullState (context : Nat) (stage : UInt32) (factorH factorV : Float32) : Reply :=
  if (w.live context).isNone ∨ 2 < stage ∨ ¬factorH.isFinite ∨ ¬factorV.isFinite ∨
      (stage ≠ 0 ∧ (factorH < 1.0 ∨ factorV < 1.0)) then w.refused
  else { world := { w with marks := w.marks.announceCullGuardState stage factorH factorV }, hr := .ok }

def decideLatch (state : State) (m : Marks) : State × Marks × Bool :=
  let marked := m.glitchFrameMarked
  let (m, held) := m.takeSubmitHoldFrame
  let withhold := (state.transitionEnabled && marked) || held
  ({ state with
      held := held, consumerAnnounced := true, latched := true
      cachedDecision :=
        { header := decisionHeader, withhold := withhold, jumpOnly := withhold && marked && !held
          verdict := m.jumpVerdictPacked } },
    m.announceGlitchConsumer, held)

def latchSubmit (context : Nat) (sequence : UInt64) (decision : Option Header) : Reply :=
  match w.live context with
  | none => w.refused
  | some state =>
    if ¬state.began ∨ decision ≠ some decisionHeader ∨ sequence = 0 ∨ sequence ≠ state.sequenceFloor ∨
        state.invalidated then w.refused
    else
      let (state, marks, took) := if state.latched then (state, w.marks, false) else decideLatch state w.marks
      { world := { w.setState context { state with latchCount := state.latchCount + 1 } with marks := marks }
        hr := .ok
        events := [.latched context sequence state.cachedDecision took] }

def invalidate (context : Nat) : Reply :=
  match w.live context with
  | none => w.refused
  | some state =>
    { world := { w.setState context { state with
          invalidated := true, began := false, latched := false, cachedDecision := {}, held := false
          invalidationCount := state.invalidationCount + 1 } with
        marks := w.marks.clearGlitchFrame.announceCullGuardState 0 1.0 1.0 }
      hr := .ok
      events := [.invalidated context] }

def close (context : Nat) : Reply :=
  match w.identify context with
  | none => w.refused
  | some state =>
    if ¬state.active then w.refused .false
    else
      let marks := w.marks.clearGlitchFrame.announceCullGuardState 0 1.0 1.0
      { world := { w.setState context { state with
            consumerAnnounced := false, active := false, device := none, invalidated := true
            began := false, latched := false } with
          marks := if state.consumerAnnounced then marks.retireGlitchConsumer else marks
          current := if w.current = some context then none else w.current }
        hr := .ok
        events := [.closed context] }

end World

inductive FrameCall where
  | acquire (request : Option NativeFrameRequest) (table : Option Header)
  | beginFrame (context : Nat) (input : Option NativeFrameInput) (output : Option Header)
      (transitionFlash : Bool)
  | setCullState (context : Nat) (stage : UInt32) (factorH factorV : Float32)
  | latchSubmit (context : Nat) (sequence : UInt64) (decision : Option Header)
  | invalidate (context : Nat)
  | close (context : Nat)
  /-- The rest of the process and the other library leave the marks like this. -/
  | others (marks : Marks)

def World.reply (w : World) : FrameCall → Reply
  | .acquire request table => w.edvrAcquireNativeFrame request table
  | .beginFrame context input output transitionFlash => w.beginFrame context input output transitionFlash
  | .setCullState context stage factorH factorV => w.setCullState context stage factorH factorV
  | .latchSubmit context sequence decision => w.latchSubmit context sequence decision
  | .invalidate context => w.invalidate context
  | .close context => w.close context
  | .others marks => { world := { w with marks := marks }, hr := .ok }

def World.step (w : World) (call : FrameCall) : World × List FrameEvent :=
  ((w.reply call).world, (w.reply call).events)

def frames (start : Marks) (calls : List FrameCall) : World × List FrameEvent :=
  Lib.traced World.step { marks := start } calls

end EdvrPatch.NativeFrame
