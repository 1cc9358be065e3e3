import Mathlib

/-! The hand-off of one texture between two devices (`shared_texture_transfer.cpp`). The
shared texture has a keyed mutex: the producer takes it at key 0 and leaves it at key 1,
the consumer the other way round. A method takes the answers of the executor, of the
mutex and of the devices, and returns the transfer it leaves, its result and a log. The
wall times and the timing of the copies are left out. -/
namespace EdvrPatch.OpenXr

abbrev Hresult := UInt32

namespace Hresult

def ok : Hresult := 0
def waitAbandoned : Hresult := 0x80
def waitTimeout : Hresult := 0x102
def pending : Hresult := 0x8000000A
def noInterface : Hresult := 0x80004002
def abort : Hresult := 0x80004004
def fail : Hresult := 0x80004005
def unexpected : Hresult := 0x8000FFFF
def accessDenied : Hresult := 0x80070005
def invalidArg : Hresult := 0x80070057
def errorTimeout : Hresult := 0x800705B4

/-- From 2^31 on it is a failure; the results of a wait are below. -/
def failed (r : Hresult) : Bool := 0x80000000 ≤ r

end Hresult

structure Failure where
  code : Hresult
  failed : code.failed = true

inductive TransferSide where
  | producer
  | consumer
  deriving DecidableEq, Repr

structure KeyedMutex where
  key : Nat := 0
  owner : Option TransferSide := none
  deriving DecidableEq, Repr

inductive AcquireAnswer where
  | ok
  | timeout
  | abandoned
  | error (f : Failure)

namespace KeyedMutex

/-- `AcquireSync`: it succeeds only where the mutex is free at that key. -/
def acquireSync (m : KeyedMutex) (side : TransferSide) (key : Nat) : AcquireAnswer → KeyedMutex × Hresult
  | .ok => if m.owner = none ∧ m.key = key then ({ m with owner := some side }, .ok) else (m, .waitTimeout)
  | .timeout => (m, .waitTimeout)
  | .abandoned => (m, .waitAbandoned)
  | .error f => (m, f.code)

def releaseSync (m : KeyedMutex) (side : TransferSide) (key : Nat) : Option Failure → KeyedMutex × Hresult
  | none => if m.owner = some side then ({ key := key }, .ok) else (m, .fail)
  | some f => (m, f.code)

end KeyedMutex

inductive DxgiFormat where
  | rgba8Typeless | rgba8Unorm | rgba8UnormSrgb
  | bgra8Typeless | bgra8Unorm | bgra8UnormSrgb
  | other (code : Nat)
  deriving DecidableEq, Repr

inductive PixelFamily where
  | rgba8
  | bgra8
  deriving DecidableEq, Repr

/-- The family of the format; the shared and the private format go with it. -/
def formatChoice : DxgiFormat → Option PixelFamily
  | .rgba8Typeless | .rgba8Unorm | .rgba8UnormSrgb => some .rgba8
  | .bgra8Typeless | .bgra8Unorm | .bgra8UnormSrgb => some .bgra8
  | .other _ => none

structure TextureDesc where
  width : Nat
  height : Nat
  mipLevels : Nat
  arraySize : Nat
  sampleCount : Nat
  sampleQuality : Nat
  usageDefault : Bool
  cpuAccessFlags : Nat
  format : DxgiFormat
  deriving DecidableEq, Repr

def validSource (d : TextureDesc) : Bool :=
  d.width ≠ 0 && d.height ≠ 0 && d.width ≤ 16384 && d.height ≤ 16384 && d.mipLevels = 1 && d.arraySize = 1 &&
    d.sampleCount = 1 && d.sampleQuality = 0 && d.usageDefault && d.cpuAccessFlags = 0

structure SourceTexture (P : Type) where
  desc : TextureDesc
  device : Nat
  pixels : P

/-- The resources of the slot: the shared texture with its mutex, and the private one.
What the producer's callback makes may be missing where it was thrown out of. -/
structure TransferSlot (P : Type) where
  mutex : KeyedMutex := {}
  pixels : P
  sharedProducer : Bool
  producerMutex : Bool
  privatePixels : P
  width : Nat
  height : Nat
  family : PixelFamily

inductive TransferStage where
  | none
  | consumerAcquire
  deriving DecidableEq, Repr

structure Transfer (P : Type) where
  initialized : Bool := false
  faulted : Bool := false
  pendingStage : TransferStage := .none
  producer : Option Nat := none
  slot : Option (TransferSlot P) := none

/-- What is logged: a mutex that is asked for, a fault, new resources, and the pixels that
are handed over, received, or taken by a shutdown. -/
inductive TransferEvent (P : Type) where
  | acquires (side : TransferSide)
  | faults
  | replaces
  | enqueued (pixels : P)
  | received (pixels : P)
  | discarded
  deriving DecidableEq, Repr

abbrev Transferred (P : Type) := Transfer P × Hresult × List (TransferEvent P)

inductive ThrownAt where
  | beforeAcquire
  | acquired
  | copied
  deriving DecidableEq, Repr

inductive Invoked where
  | refused
  | ran
  | threw (point : ThrownAt)
  deriving DecidableEq, Repr

structure TransferDevice where
  id : Nat
  singleThreaded : Bool
  deriving DecidableEq, Repr

structure InitializeCall where
  onOwner : Bool
  producer : Option TransferDevice
  consumer : Option TransferDevice
  executor : Bool
  consumerLuid : Bool
  invoked : Bool
  producerValid : Bool
  consumerContext : Bool
  consumerDevice1 : Bool

structure DrainPoll where
  device : Option Failure
  data : Hresult
  complete : Bool
  elapsedMs : Nat

/-- The answers while resources are made. The callback gets as far as its results go. -/
structure Creation (P : Type) where
  callbackRan : Bool
  producerResults : List Hresult
  openShared : Hresult × Bool
  consumerMutex : Hresult × Bool
  privateTexture : Hresult × Bool
  event : Hresult × Bool
  contents : P × P

structure EnqueueCall (P : Type) where
  onOwner : Bool
  source : Option (SourceTexture P)
  timeoutMs : Nat
  polls : List DrainPoll
  creation : Creation P
  invoked : Invoked
  acquire : AcquireAnswer
  device : Option Failure
  release : Option Failure

structure ReceiveCall where
  onOwner : Bool
  timeoutMs : Nat
  acquire : AcquireAnswer
  device : Option Failure
  release : Option Failure

structure ShutdownCall where
  onOwner : Bool
  timeoutMs : Nat
  receive : ReceiveCall
  polls : List DrainPoll

def infinite : Nat := 0xFFFFFFFF

namespace Transfer

variable {P : Type}

def hasResources (t : Transfer P) : Bool :=
  t.slot.any fun s => s.sharedProducer && s.producerMutex

def fault (t : Transfer P) : Transfer P :=
  { t with faulted := true }

def validateInitialize (t : Transfer P) (c : InitializeCall) : Transferred P :=
  match c.producer, c.consumer with
  | some producer, some consumer =>
    if !c.onOwner || t.initialized || t.pendingStage ≠ .none || t.faulted || !c.executor ||
        producer.id = consumer.id || producer.singleThreaded || consumer.singleThreaded then (t, .invalidArg, [])
    else if !c.consumerLuid then (t, .noInterface, [])
    else if !c.invoked || !c.producerValid then (t, if c.invoked then .invalidArg else .abort, [])
    else if !c.consumerContext then (t, .noInterface, [])
    else if !c.consumerDevice1 then (t, .noInterface, [])
    else ({ t with initialized := true, producer := some producer.id }, .ok, [])
  | _, _ => (t, .invalidArg, [])

/-- The turns of the drain, until one decides; the clock comes to the deadline in the end. -/
def drains (timeoutMs : Nat) : List DrainPoll → Bool × Hresult
  | [] => (false, .errorTimeout)
  | poll :: rest =>
    match poll.device with
    | some f => (true, f.code)
    | none =>
      if poll.data = .ok ∧ poll.complete then (false, .ok)
      else if poll.data.failed then (true, poll.data)
      else if timeoutMs ≤ poll.elapsedMs then (false, .errorTimeout)
      else drains timeoutMs rest

def drainConsumer (t : Transfer P) (timeoutMs : Nat) (polls : List DrainPoll) : Transferred P :=
  if !t.hasResources then (t, .ok, [])
  else if !t.initialized then (t.fault, .fail, [.faults])
  else
    match drains timeoutMs polls with
    | (true, result) => (t.fault, result, [.faults])
    | (false, result) => (t, result, [])

/-- The result of the producer's callback: that of the last call it made. -/
def producerResult : List Hresult → Hresult
  | [] => .fail
  | [r] => r
  | r :: rest => if r = .ok then producerResult rest else r

def opens (c : Creation P) : Hresult :=
  let shared := c.openShared
  let mutex := if shared.1 = .ok ∧ shared.2 then c.consumerMutex else (shared.1, false)
  let texture := if mutex.1 = .ok ∧ mutex.2 then c.privateTexture else (mutex.1, false)
  let event := if texture.1 = .ok ∧ texture.2 then c.event else (texture.1, false)
  if event.1 ≠ .ok ∨ !shared.2 ∨ !mutex.2 ∨ !texture.2 ∨ !event.2 then
    if event.1 = .ok then .fail else event.1
  else .ok

def newSlot (d : TextureDesc) (family : PixelFamily) (c : Creation P) : TransferSlot P where
  pixels := c.contents.1
  sharedProducer := c.producerResults[0]? == some .ok
  producerMutex := c.producerResults[1]? == some .ok
  privatePixels := c.contents.2
  width := d.width
  height := d.height
  family := family

def createResources (t : Transfer P) (d : TextureDesc) (family : PixelFamily) (timeoutMs : Nat)
    (polls : List DrainPoll) (c : Creation P) : Transferred P :=
  if t.hasResources && t.slot.any (fun s => s.width = d.width && s.height = d.height && s.family = family) then
    (t, .ok, [])
  else
    match (if t.hasResources then t.drainConsumer timeoutMs polls else (t, .ok, [])) with
    | (t, drained, log) =>
      if drained ≠ .ok then (t, drained, log)
      else if !c.callbackRan then (t, .abort, log)
      else if producerResult (c.producerResults.take 4) ≠ .ok then
        (t, producerResult (c.producerResults.take 4), log)
      else if opens c ≠ .ok then (t, opens c, log)
      else
        ({ t with slot := some (newSlot d family c) }, .ok, log ++ [.replaces])

/-- The producer's callback: whether it completed, and the result of the mutex. -/
def producerCallback (s : TransferSlot P) (source : P) (c : EnqueueCall P) : TransferSlot P × Bool × Hresult :=
  if c.invoked = .threw .beforeAcquire then (s, false, .fail)
  else
    let (mutex, result) := s.mutex.acquireSync .producer 0 c.acquire
    let s := { s with mutex := mutex }
    if result ≠ .ok then (s, true, result)
    else if c.invoked = .threw .acquired then (s, false, result)
    else
      let s := { s with pixels := source }
      if c.invoked = .threw .copied then (s, false, result)
      else
        let (mutex, released) := s.mutex.releaseSync .producer 1 c.release
        ({ s with mutex := mutex }, true, match c.device with | none => released | some f => f.code)

def producerCopy (t : Transfer P) (source : P) (c : EnqueueCall P) : Transferred P :=
  match t.slot with
  | none => (t, .invalidArg, [])
  | some s =>
    if !t.hasResources then (t, .invalidArg, [])
    else if c.invoked = .refused then (t, .abort, [])
    else
      let (s, completed, result) := producerCallback s source c
      let t := { t with slot := some s }
      let asked := if c.invoked = .threw .beforeAcquire then [] else [.acquires .producer]
      if !completed then (t.fault, .fail, asked ++ [.faults])
      else if result = .waitTimeout then ({ t with pendingStage := .none }, result, asked)
      else if result ≠ .ok then (t.fault, result, asked ++ [.faults])
      else ({ t with pendingStage := .consumerAcquire }, .ok, asked ++ [.enqueued source])

def enqueue (t : Transfer P) (c : EnqueueCall P) : Transferred P :=
  if !c.onOwner then (t, .accessDenied, [])
  else if c.timeoutMs = infinite then (t, .invalidArg, [])
  else if !t.initialized || t.faulted then (t, .fail, [])
  else if t.pendingStage ≠ .none then (t, .pending, [])
  else
    match c.source with
    | none => (t, .invalidArg, [])
    | some source =>
      match formatChoice source.desc.format with
      | none => (t, .invalidArg, [])
      | some family =>
        if !validSource source.desc then (t, .invalidArg, [])
        else if t.producer ≠ some source.device then (t, .invalidArg, [])
        else
          match t.createResources source.desc family c.timeoutMs c.polls c.creation with
          | (t, resources, log) =>
            if resources ≠ .ok then (t, resources, log)
            else
              match t.producerCopy source.pixels c with
              | (t, result, more) => (t, result, log ++ more)

def consume (t : Transfer P) (c : ReceiveCall) : Transferred P :=
  match t.slot with
  | none => (t, .invalidArg, [])
  | some s =>
    if !t.hasResources || t.pendingStage ≠ .consumerAcquire then (t, .invalidArg, [])
    else
      let (mutex, result) := s.mutex.acquireSync .consumer 1 c.acquire
      let s := { s with mutex := mutex }
      let t := { t with slot := some s }
      if result = .waitTimeout then ({ t with pendingStage := .consumerAcquire }, result, [.acquires .consumer])
      else if result ≠ .ok then (t.fault, result, [.acquires .consumer, .faults])
      else
        let s := { s with privatePixels := s.pixels }
        let (mutex, released) := s.mutex.releaseSync .consumer 0 c.release
        let t := { t with slot := some { s with mutex := mutex } }
        let result := match c.device with | none => released | some f => f.code
        if result ≠ .ok then (t.fault, result, [.acquires .consumer, .faults])
        else ({ t with pendingStage := .none }, .ok, [.acquires .consumer])

def output (t : Transfer P) : Option P :=
  t.slot.map TransferSlot.privatePixels

def receiveInternal (t : Transfer P) (c : ReceiveCall) : Transferred P × Option P :=
  if t.pendingStage ≠ .consumerAcquire then ((t, .unexpected, []), none)
  else
    match t.consume c with
    | (t, consumed, log) =>
      if consumed ≠ .ok then ((t, consumed, log), none)
      else
        match t.output with
        | none => ((t, .fail, log), none)
        | some pixels => ((t, .ok, log), some pixels)

def receive (t : Transfer P) (c : ReceiveCall) : Transferred P :=
  if !c.onOwner then (t, .accessDenied, [])
  else if c.timeoutMs = infinite then (t, .invalidArg, [])
  else if !t.initialized || t.faulted then (t, .fail, [])
  else
    match t.receiveInternal c with
    | ((t, result, log), some pixels) => (t, result, log ++ [.received pixels])
    | ((t, result, log), none) => (t, result, log)

def copy (t : Transfer P) (e : EnqueueCall P) (c : ReceiveCall) : Transferred P :=
  match t.enqueue e with
  | (t, queued, log) =>
    if queued = .ok then
      match t.receive c with
      | (t, result, more) => (t, result, log ++ more)
    else (t, queued, log)

def closes (t : Transfer P) (c : ShutdownCall) : Transferred P :=
  match t.drainConsumer c.timeoutMs c.polls with
  | (t, drained, log) =>
    if drained ≠ .ok then (t, drained, log)
    else ({ t with slot := none, pendingStage := .none, producer := none, initialized := false }, .ok, log)

def shutdown (t : Transfer P) (c : ShutdownCall) : Transferred P :=
  if !c.onOwner then (t, .accessDenied, [])
  else if c.timeoutMs = infinite then (t, .invalidArg, [])
  else if !t.initialized then (t, .ok, [])
  else if t.faulted then (t, .fail, [])
  else if t.pendingStage = .consumerAcquire then
    match t.receiveInternal c.receive with
    | ((t, received, log), _) =>
      if received ≠ .ok then (t, if received = .waitTimeout then .pending else received, log)
      else
        match t.closes c with
        | (t, result, more) => (t, result, log ++ [.discarded] ++ more)
  else t.closes c

end Transfer

end EdvrPatch.OpenXr
