import EdvrPatch.OpenXr.EyeCapture
import EdvrPatch.OpenXr.TransferRuns

/-! The captured eyes in shared mode, over the transfers that bring their pixels: whether
the picture that an eye shows is all of one submission. -/
namespace EdvrPatch.OpenXr

/-- A texture of the consumer: the private one of the transfer, or one that was replaced and
is written no more. -/
inductive EyeTexture (P : Type) where
  | privateTexture
  | replaced (pixels : P)

structure SharedEye (m : Media) where
  transfer : Option (Transfer m.Pixels) := none
  copy : Option (EyeTexture m.Pixels) := none
  bounds : m.Bounds := m.fullBounds
  colorSpace : EColorSpace := .auto
  captured : Bool := false
  pending : Bool := false

/-- A call of `capture` with the answers of what it asks. `refusal` is that of the checks of
the submission. -/
structure SharedCapture (m : Media) where
  refusal : EVRCompositorError := .none
  copyPixels : Bool := true
  deferConsumer : Bool := false
  source : SourceTexture m.Pixels
  bounds : m.Bounds
  colorSpace : EColorSpace
  initialized : InitializeCall
  previous : ReceiveCall
  enqueue : EnqueueCall m.Pixels
  receive : ReceiveCall

def SharedCapture.image {m : Media} (c : SharedCapture m) : Image m :=
  ⟨c.source.pixels, c.bounds, c.colorSpace⟩

def SharedCapture.enqueueCall {m : Media} (c : SharedCapture m) : EnqueueCall m.Pixels :=
  { c.enqueue with source := some c.source }

def replaces {P : Type} (log : List (TransferEvent P)) : Bool :=
  log.any fun event => match event with
    | .replaces => true
    | _ => false

namespace SharedEye

variable {m : Media}

/-- `sharedTransfers_[i]`, which is made when it is first needed. -/
def handing (eye : SharedEye m) : Transfer m.Pixels := eye.transfer.getD {}

def content (eye : SharedEye m) : Option m.Pixels :=
  match eye.copy with
  | none => none
  | some .privateTexture => eye.handing.output
  | some (.replaced pixels) => some pixels

/-- The transfer has made a call; the eye keeps a texture that was replaced. -/
def put (eye : SharedEye m) (r : Transferred m.Pixels) : SharedEye m :=
  { eye with
    transfer := some r.1
    copy := if replaces r.2.2 then eye.content.map .replaced else eye.copy }

def prepare (eye : SharedEye m) (c : InitializeCall) : SharedEye m × Hresult :=
  let t := eye.handing
  if !t.initialized ∧ t.pendingStage = .none ∧ !t.faulted then
    let r := t.validateInitialize c
    (eye.put r, r.2.1)
  else (eye.put (t, .ok, []), .ok)

def receivePrevious (eye : SharedEye m) (c : ReceiveCall) : SharedEye m × Hresult :=
  if eye.handing.pendingStage = .none then (eye, .ok)
  else
    let r := eye.handing.receive c
    if r.2.1 ≠ .ok then (eye.put r, r.2.1) else ({ eye.put r with pending := false }, .ok)

def captureShared (eye : SharedEye m) (c : SharedCapture m) : SharedEye m × EVRCompositorError :=
  if c.refusal ≠ .none then (eye, c.refusal)
  else if !c.copyPixels then (eye, .none)
  else
  let (eye, prepared) := eye.prepare c.initialized
  if prepared ≠ .ok then (eye, .invalidTexture)
  else
  let (eye, received) := eye.receivePrevious c.previous
  if received ≠ .ok then (eye, .invalidTexture)
  else if c.deferConsumer then
    let r := eye.handing.enqueue c.enqueueCall
    if r.2.1 ≠ .ok then (eye.put r, .invalidTexture)
    else
      ({ eye.put r with
        bounds := c.bounds, colorSpace := c.colorSpace, captured := false, pending := true }, .none)
  else
    let r := eye.handing.copy c.enqueueCall c.receive
    if r.2.1 ≠ .ok then (eye.put r, .invalidTexture)
    else
      ({ eye.put r with
        copy := some .privateTexture, bounds := c.bounds, colorSpace := c.colorSpace
        captured := true }, .none)

def complete (eye : SharedEye m) (c : ReceiveCall) : SharedEye m × Hresult :=
  if !eye.pending then (eye, .ok)
  else
    match eye.transfer with
    | none => (eye, .unexpected)
    | some t =>
      let r := t.receive c
      if r.2.1 ≠ .ok then (eye.put r, r.2.1)
      else
        ({ eye.put r with copy := some .privateTexture, pending := false, captured := true }, .ok)

def reset (eye : SharedEye m) : SharedEye m :=
  { eye with
    copy := none, bounds := m.fullBounds, colorSpace := .auto, captured := false, pending := false }

def picture (eye : SharedEye m) : Picture m :=
  if eye.captured then ⟨eye.content, eye.bounds, eye.colorSpace⟩ else ⟨none, m.fullBounds, .auto⟩

end SharedEye

abbrev SharedPair (m : Media) := Eye → SharedEye m

/-- The rounds of the loop. The left eye comes first, and where its round fails, the right
eye has none. -/
def SharedPair.round {m : Media} (pair : SharedPair m) (answers : Eye → ReceiveCall) :
    Eye → SharedEye m × Hresult
  | .left => (pair .left).complete (answers .left)
  | .right =>
    let left := (pair .left).complete (answers .left)
    if left.2 ≠ .ok then (pair .right, left.2) else (pair .right).complete (answers .right)

def SharedPair.completePending {m : Media} (pair : SharedPair m) (answers : Eye → ReceiveCall) :
    SharedPair m × Hresult :=
  (fun eye => (pair.round answers eye).1, (pair.round answers .right).2)

def SharedPair.idle {m : Media} (pair : SharedPair m) : Bool :=
  !(pair .left).pending && !(pair .right).pending &&
    (pair .left).handing.pendingStage = .none && (pair .right).handing.pendingStage = .none

/-- The captures that exchange buffers among them. `matching` says that two were initialised
alike and that the owner asks. -/
inductive SharedCall (ι : Type) (m : Media) where
  | capture (i : ι) (eye : Eye) (c : SharedCapture m)
  | completePending (i : ι) (answers : Eye → ReceiveCall)
  | exchangeBuffers (i j : ι) (matching : Bool)
  | reset (i : ι)

/-- What the results of the calls say of an eye: the submission that can be read, whether the
call that made it so returned a success, and the deferred submission that waits. -/
structure Told (m : Media) where
  readable : Option (Image m) := none
  returned : Bool := false
  awaited : Option (Image m) := none

def Told.captures {m : Media} (told : Told m) (c : SharedCapture m)
    (result : EVRCompositorError) : Told m :=
  if result = .none ∧ c.copyPixels then
    if c.deferConsumer then { awaited := some c.image }
    else { readable := some c.image, returned := true }
  else told

def Told.completes {m : Media} (told : Told m) (round result : Hresult) : Told m :=
  if round = .ok ∧ told.awaited.isSome then
    { readable := told.awaited, returned := result = .ok }
  else told

structure SharedRun (ι : Type) (m : Media) where
  pairs : ι → SharedPair m := fun _ _ => {}
  told : ι → Eye → Told m := fun _ _ => {}

namespace SharedRun

variable {ι : Type} [DecidableEq ι] {m : Media}

def perform (s : SharedRun ι m) : SharedCall ι m → SharedRun ι m
  | .capture i eye c =>
    let r := (s.pairs i eye).captureShared c
    { pairs := Function.update s.pairs i (Function.update (s.pairs i) eye r.1)
      told := Function.update s.told i
        (Function.update (s.told i) eye ((s.told i eye).captures c r.2)) }
  | .completePending i answers =>
    let r := (s.pairs i).completePending answers
    { pairs := Function.update s.pairs i r.1
      told := Function.update s.told i fun eye =>
        (s.told i eye).completes ((s.pairs i).round answers eye).2 r.2 }
  | .exchangeBuffers i j matching =>
    if i = j ∨ ¬matching ∨ !(s.pairs i).idle ∨ !(s.pairs j).idle then s
    else
      { pairs := Function.update (Function.update s.pairs i (s.pairs j)) j (s.pairs i)
        told := Function.update (Function.update s.told i (s.told j)) j (s.told i) }
  | .reset i =>
    { pairs := Function.update s.pairs i fun eye => (s.pairs i eye).reset
      told := Function.update s.told i fun _ => {} }

def performAll (calls : List (SharedCall ι m)) : SharedRun ι m := calls.foldl perform {}

/-- Every picture is all of the submission that can be read by the results. -/
def OfOneSubmission (s : SharedRun ι m) : Prop :=
  ∀ i eye, (s.pairs i eye).picture.texture ≠ none →
    ∃ image, (s.told i eye).readable = some image ∧ (s.pairs i eye).picture = image.picture

def Returned (s : SharedRun ι m) : Prop :=
  ∀ i eye, (s.pairs i eye).picture.texture ≠ none → (s.told i eye).returned = true

def Each (P : SharedRun ι m → SharedCall ι m → Prop) :
    SharedRun ι m → List (SharedCall ι m) → Prop
  | _, [] => True
  | s, call :: rest => P s call ∧ Each P (s.perform call) rest

end SharedRun

/-! What the calls of a transfer do to the hand-off and to the private texture. -/

namespace Transfer

variable {P : Type} {t : Transfer P}

def copies (t : Transfer P) (c : ReceiveCall) : Prop :=
  c.onOwner ∧ c.timeoutMs ≠ infinite ∧ t.initialized ∧ ¬t.faulted ∧
    t.pendingStage = .consumerAcquire ∧ c.acquire = .ok

theorem validateInitialize_slot (t : Transfer P) (c : InitializeCall) :
    (t.validateInitialize c).1.slot = t.slot ∧
      (t.validateInitialize c).1.pendingStage = t.pendingStage ∧
      (t.validateInitialize c).2.2 = [] := by
  unfold validateInitialize
  grind

/-- What a call of the consumer does: the pixels of the hand-off come to the private
texture, or the hand-off stays. Only a call that copies writes the texture. -/
structure Brings (t : Transfer P) (copied : Prop) (r : Transferred P) : Prop where
  keeps : replaces r.2.2 = false
  done : r.2.1 = .ok → copied ∧ r.1.output = t.handOff ∧ t.handOff ≠ none
  failed : r.2.1 ≠ .ok → r.1.handOff = t.handOff
  output : ¬copied → r.1.output = t.output

theorem Brings.nothing {copied : Prop} (t : Transfer P) {result : Hresult} (error : result ≠ .ok) :
    Brings t copied (t, result, []) :=
  ⟨rfl, fun ok => absurd ok error, fun _ => rfl, fun _ => rfl⟩

theorem consume_brings (t : Transfer P) (c : ReceiveCall) :
    Brings t (t.pendingStage = .consumerAcquire ∧ c.acquire = .ok) (t.consume c) := by
  unfold consume
  cases isSlot : t.slot with
  | none => exact .nothing t invalidArg_ne_ok
  | some s =>
    dsimp only
    split
    · exact .nothing t invalidArg_ne_ok
    have stage : t.pendingStage = .consumerAcquire := by simp_all
    have offered : t.handOff = some s.pixels := by
      rw [handOff, if_pos stage, isSlot]
      rfl
    have had : t.output = some s.privatePixels := by
      rw [output, isSlot]
      rfl
    have given : (s.mutex.acquireSync .consumer 1 c.acquire).2 = .ok → c.acquire = .ok := by
      intro asked
      cases answer : c.acquire with
      | ok => rfl
      | timeout => rw [answer] at asked; exact absurd asked waitTimeout_ne_ok
      | abandoned => rw [answer] at asked; exact absurd asked abandoned_ne_ok
      | error f => rw [answer] at asked; exact absurd asked f.ne_ok
    generalize s.mutex.acquireSync .consumer 1 c.acquire = asked at given ⊢
    obtain ⟨mutex, result⟩ := asked
    dsimp only at given ⊢
    have stays (t' : Transfer P) (slot : t'.slot = some { s with mutex := mutex })
        (same : t'.pendingStage = .consumerAcquire) (log : List (TransferEvent P))
        (quiet : replaces log = false) (error : result ≠ .ok) :
        Brings t (t.pendingStage = .consumerAcquire ∧ c.acquire = .ok) (t', result, log) := by
      refine ⟨quiet, fun ok => absurd ok error, fun _ => ?_, fun _ => ?_⟩
      · rw [offered, handOff, if_pos same, slot]
        rfl
      · rw [had, output, slot]
        rfl
    split
    · rename_i late
      exact stays _ rfl rfl _ rfl (late ▸ waitTimeout_ne_ok)
    split
    · rename_i error
      exact stays ({ t with slot := some { s with mutex := mutex } } : Transfer P).fault rfl stage
        [.acquires .consumer, .faults] rfl error
    rename_i acquired
    have copied := And.intro stage (given (not_not.mp acquired))
    generalize mutex.releaseSync .consumer 0 c.release = answered
    obtain ⟨mutex', released⟩ := answered
    have copies (u : Transfer P) (slot : u.slot.map TransferSlot.pixels = some s.pixels)
        (out : u.output = some s.pixels) (same : u.pendingStage = .consumerAcquire) (outcome : Hresult) :
        Brings t (t.pendingStage = .consumerAcquire ∧ c.acquire = .ok)
          (if outcome ≠ .ok then (u.fault, outcome, [.acquires .consumer, .faults])
            else ({ u with pendingStage := .none }, .ok, [.acquires .consumer])) := by
      split
      · rename_i broken
        refine ⟨rfl, fun ok => absurd ok broken, fun _ => ?_, absurd copied⟩
        rw [offered, ← slot]
        exact if_pos same
      · refine ⟨rfl, fun _ => ⟨copied, ?_, by simp [offered]⟩, fun error => absurd rfl error,
          absurd copied⟩
        rw [offered]
        exact out
    exact copies
      { t with slot := some { s with mutex := mutex', privatePixels := s.pixels } } rfl rfl stage _

theorem receive_brings (t : Transfer P) (c : ReceiveCall) :
    Brings t (t.copies c) (t.receive c) := by
  unfold receive
  split
  · exact .nothing t (by decide)
  split
  · exact .nothing t (by decide)
  split
  · exact .nothing t (by decide)
  rw [receiveInternal]
  by_cases idle : t.pendingStage ≠ .consumerAcquire
  · rw [if_pos idle]
    exact .nothing t unexpected_ne_ok
  rw [if_neg idle]
  have copied : t.pendingStage = .consumerAcquire ∧ c.acquire = .ok ↔ t.copies c := by
    unfold copies
    simp_all
  have brings := consume_brings t c
  rw [copied] at brings
  generalize t.consume c = r at brings ⊢
  obtain ⟨t', result, log⟩ := r
  dsimp only
  by_cases ok : result = .ok
  · obtain ⟨answered, same, isSome⟩ := brings.done ok
    obtain ⟨pixels, here⟩ := Option.ne_none_iff_exists'.mp isSome
    have out : t'.output = some pixels := same.trans here
    rw [if_neg (not_not_intro ok), out]
    refine ⟨?_, fun _ => ⟨answered, same, isSome⟩, fun error => absurd rfl error, absurd answered⟩
    have quiet := brings.keeps
    unfold replaces at quiet ⊢
    simpa using quiet
  · rw [if_pos ok]
    exact brings

/-- What a call of the producer does: its source is the hand-off, or nothing is handed over.
The private texture keeps its pixels unless it is replaced. -/
structure Sends (t : Transfer P) (source : P) (r : Transferred P) : Prop where
  done : r.2.1 = .ok → r.1.handOff = some source
  output : replaces r.2.2 = false → r.1.output = t.output

theorem Sends.nothing (t : Transfer P) {source : P} {result : Hresult} (error : result ≠ .ok) :
    Sends t source (t, result, []) :=
  ⟨fun ok => absurd ok error, fun _ => rfl⟩

theorem producerCallback_leaves (s : TransferSlot P) (source : P) (c : EnqueueCall P) :
    (producerCallback s source c).1.privatePixels = s.privatePixels ∧
      ((producerCallback s source c).2.1 = true → (producerCallback s source c).2.2 = .ok →
        (producerCallback s source c).1.pixels = source) := by
  unfold producerCallback
  grind

theorem producerCopy_sends (t : Transfer P) (source : P) (c : EnqueueCall P) :
    Sends t source (t.producerCopy source c) ∧ replaces (t.producerCopy source c).2.2 = false := by
  unfold producerCopy
  cases isSlot : t.slot with
  | none => exact ⟨.nothing t (by decide), rfl⟩
  | some s =>
    have leaves := producerCallback_leaves s source c
    have had : t.output = some s.privatePixels := by
      rw [output, isSlot]
      rfl
    dsimp only
    generalize producerCallback s source c = called at leaves
    obtain ⟨s', completed, result⟩ := called
    have same (t' : Transfer P) (slot : t'.slot = some s') : t'.output = t.output := by
      rw [had, output, slot, ← leaves.1]
      rfl
    split
    · exact ⟨.nothing t (by decide), rfl⟩
    split
    · exact ⟨.nothing t (by decide), rfl⟩
    have quiet (log : List (TransferEvent P)) (plain : replaces log = false) :
        replaces ((if c.invoked = .threw .beforeAcquire then [] else [TransferEvent.acquires .producer]) ++ log) =
          false := by
      split
      · exact plain
      · exact plain
    split
    · exact ⟨⟨fun ok => absurd ok (show Hresult.fail ≠ .ok by decide), fun _ => same _ rfl⟩,
        quiet _ rfl⟩
    rename_i finished
    split
    · rename_i late
      refine ⟨⟨fun ok => absurd (late.symm.trans ok) (by decide), fun _ => same _ rfl⟩, ?_⟩
      simpa using quiet [] rfl
    split
    · rename_i error
      exact ⟨⟨fun ok => absurd ok error, fun _ => same _ rfl⟩, quiet _ rfl⟩
    rename_i ok
    refine ⟨⟨fun _ => ?_, fun _ => same _ rfl⟩, quiet _ rfl⟩
    exact congrArg some (leaves.2 (by simpa using finished) (not_not.mp ok))

variable {source : SourceTexture P}

theorem enqueue_sends (t : Transfer P) (c : EnqueueCall P) (isSource : c.source = some source) :
    Sends t source.pixels (t.enqueue c) := by
  obtain ⟨r, error, refused⟩ | ⟨source', family, own, -, -, enqueues⟩ := t.enqueue_cases c
  · rw [refused]
    exact .nothing t error
  cases isSource.symm.trans own
  rw [enqueues]
  obtain ⟨r, found⟩ | ⟨r, error, found⟩ | found :=
    t.createResources_cases source.desc family c.timeoutMs c.polls c.creation <;> rw [found] <;>
      dsimp only
  · split
    · rename_i error
      exact .nothing t error
    have copied := producerCopy_sends t source.pixels c
    exact ⟨copied.1.done, fun _ => copied.1.output copied.2⟩
  · rw [if_pos error]
    exact ⟨fun ok => absurd ok error, fun _ => rfl⟩
  · rw [if_neg (not_not_intro rfl)]
    refine ⟨(producerCopy_sends _ source.pixels c).1.done, nofun⟩

theorem replaces_append (log more : List (TransferEvent P)) :
    replaces (log ++ more) = (replaces log || replaces more) :=
  List.any_append

theorem copy_done (t : Transfer P) (e : EnqueueCall P) (c : ReceiveCall)
    (isSource : e.source = some source) (ok : (t.copy e c).2.1 = .ok) :
    (t.copy e c).1.output = some source.pixels := by
  have sends := enqueue_sends t e isSource
  unfold copy at ok ⊢
  generalize t.enqueue e = sent at sends ok ⊢
  obtain ⟨u, queued, log⟩ := sent
  dsimp only at ok ⊢
  split at ok
  · rename_i queued
    rw [if_pos queued, ((receive_brings u c).done ok).2.1]
    exact sends.done queued
  · rename_i failed
    exact absurd ok failed

theorem copy_output (t : Transfer P) (e : EnqueueCall P) (c : ReceiveCall)
    (isSource : e.source = some source) (failed : (t.copy e c).2.1 ≠ .ok)
    (kept : replaces (t.copy e c).2.2 = false)
    (through : replaces (t.enqueue e).2.2 = false → (t.enqueue e).1.copies c → ((t.enqueue e).1.receive c).2.1 = .ok) :
    (t.copy e c).1.output = t.output := by
  have sends := enqueue_sends t e isSource
  unfold copy at failed kept ⊢
  generalize t.enqueue e = sent at sends failed kept through ⊢
  obtain ⟨u, queued, log⟩ := sent
  dsimp only at failed kept through ⊢
  by_cases went : queued = .ok
  · rw [if_pos went] at failed kept ⊢
    rw [replaces_append, Bool.or_eq_false_iff] at kept
    have uncopied : ¬u.copies c := fun copied => failed (through kept.1 copied)
    exact ((receive_brings u c).output uncopied).trans (sends.output kept.1)
  · rw [if_neg went] at kept ⊢
    exact sends.output kept

end Transfer

namespace SharedEye

variable {m : Media} {eye : SharedEye m} {told : Told m} {whole : Prop}

/-- What the transfer does for a capture once no earlier hand-off is pending. -/
def transfers (t : Transfer m.Pixels) (c : SharedCapture m) : Transferred m.Pixels :=
  if c.deferConsumer then t.enqueue c.enqueueCall else t.copy c.enqueueCall c.receive

/-- A capture of an eye that shows the private texture: where it takes over an earlier
hand-off, it succeeds; and the consumer's half of its own copy does not break once it has
copied. -/
def Unbroken (eye : SharedEye m) (c : SharedCapture m) : Prop :=
  eye.captured = true → eye.copy = some .privateTexture →
    (eye.handing.copies c.previous →
      (eye.handing.receive c.previous).2.1 = .ok ∧
        (transfers (eye.handing.receive c.previous).1 c).2.1 = .ok) ∧
    (eye.handing.pendingStage = .none → c.deferConsumer = false →
      replaces (eye.handing.enqueue c.enqueueCall).2.2 = false →
      (eye.handing.enqueue c.enqueueCall).1.copies c.receive →
      ((eye.handing.enqueue c.enqueueCall).1.receive c.receive).2.1 = .ok)

def Steady (eye : SharedEye m) (c : SharedCapture m) : Prop :=
  c.refusal = .none → c.copyPixels = true → (eye.prepare c.initialized).2 = .ok →
    (eye.prepare c.initialized).1.Unbroken c

/-- The eye is as the results say. `whole` stands for the pairs being completed whole. -/
structure Agrees (whole : Prop) (eye : SharedEye m) (told : Told m) : Prop where
  shown : eye.captured = true → ∃ image, told.readable = some image ∧
    eye.content = some image.pixels ∧ eye.bounds = image.bounds ∧ eye.colorSpace = image.colorSpace
  waiting : eye.pending = true → eye.captured = false ∧ ∃ image, told.awaited = some image ∧
    eye.handing.handOff = some image.pixels ∧
    eye.bounds = image.bounds ∧ eye.colorSpace = image.colorSpace
  settled : eye.captured = true → told.awaited = none
  returned : whole → eye.captured = true → told.returned = true

theorem Agrees.blank (told : Told m) (dark : eye.captured = false) (idle : eye.pending = false) :
    Agrees whole eye told := by
  constructor <;> simp [dark, idle]

theorem content_put {r : Transferred m.Pixels}
    (output : eye.copy = some .privateTexture → replaces r.2.2 = false →
      r.1.output = eye.handing.output) :
    (eye.put r).content = eye.content := by
  unfold put
  cases replaced : replaces r.2.2 with
  | true =>
    cases had : eye.content with
    | none => rfl
    | some pixels => rfl
  | false =>
    unfold content
    cases had : eye.copy with
    | none => rfl
    | some texture =>
      cases texture with
      | privateTexture => exact output had replaced
      | replaced pixels => rfl

theorem Agrees.put (agrees : Agrees whole eye told) {r : Transferred m.Pixels}
    (output : eye.captured = true → eye.copy = some .privateTexture → replaces r.2.2 = false →
      r.1.output = eye.handing.output)
    (handOff : eye.pending = true → r.1.handOff = eye.handing.handOff) :
    Agrees whole (eye.put r) told where
  shown captured := by
    obtain ⟨image, readable, content, described⟩ := agrees.shown captured
    exact ⟨image, readable, (content_put (output captured)).trans content, described⟩
  waiting pending := by
    obtain ⟨dark, image, awaited, offered, described⟩ := agrees.waiting pending
    exact ⟨dark, image, awaited, (handOff pending).trans offered, described⟩
  settled := agrees.settled
  returned := agrees.returned

theorem Agrees.prepare (agrees : Agrees whole eye told) (c : InitializeCall) :
    Agrees whole (eye.prepare c).1 told := by
  unfold SharedEye.prepare
  dsimp only
  split
  · have slot := eye.handing.validateInitialize_slot c
    apply agrees.put
    · intro _ _ _
      rw [Transfer.output, slot.1, Transfer.output]
    · intro _
      rw [Transfer.handOff, slot.2.1, slot.1, Transfer.handOff]
  · exact agrees.put (fun _ _ _ => rfl) (fun _ => rfl)

theorem Agrees.idle (agrees : Agrees whole eye told) (stage : eye.handing.pendingStage = .none) :
    eye.pending = false := by
  cases pending : eye.pending with
  | false => rfl
  | true =>
    obtain ⟨-, image, -, offered, -⟩ := agrees.waiting pending
    rw [Transfer.handOff, stage] at offered
    cases offered

variable {c : SharedCapture m}

theorem receivePrevious_cases (agrees : Agrees whole eye told) (unbroken : eye.Unbroken c) :
    (eye.receivePrevious c.previous).2 ≠ .ok ∧
        Agrees whole (eye.receivePrevious c.previous).1 told ∨
      eye.receivePrevious c.previous = (eye, .ok) ∧ eye.handing.pendingStage = .none ∨
      eye.receivePrevious c.previous =
          ({ eye.put (eye.handing.receive c.previous) with pending := false }, .ok) ∧
        eye.handing.copies c.previous := by
  have brings := eye.handing.receive_brings c.previous
  unfold receivePrevious
  by_cases stage : eye.handing.pendingStage = .none
  · rw [if_pos stage]
    exact .inr (.inl ⟨rfl, stage⟩)
  rw [if_neg stage]
  dsimp only
  split
  · rename_i failed
    refine .inl ⟨failed, agrees.put ?_ fun _ => brings.failed failed⟩
    intro captured shows _
    exact brings.output fun copied => failed ((unbroken captured shows).1 copied).1
  · rename_i ok
    exact .inr (.inr ⟨rfl, (brings.done (not_not.mp ok)).1⟩)

/-- What `captureShared` does once no earlier hand-off is pending. -/
def captureIdle (eye : SharedEye m) (c : SharedCapture m) : SharedEye m × EVRCompositorError :=
  let r := transfers eye.handing c
  if r.2.1 ≠ .ok then (eye.put r, .invalidTexture)
  else
    ({ eye.put r with
      copy := if c.deferConsumer then (eye.put r).copy else some .privateTexture
      bounds := c.bounds, colorSpace := c.colorSpace
      captured := !c.deferConsumer, pending := eye.pending || c.deferConsumer }, .none)

theorem captureShared_eq (eye : SharedEye m) (c : SharedCapture m) :
    eye.captureShared c =
      if c.refusal ≠ .none then (eye, c.refusal)
      else if !c.copyPixels then (eye, .none)
      else
      let (eye, prepared) := eye.prepare c.initialized
      if prepared ≠ .ok then (eye, .invalidTexture)
      else
      let (eye, received) := eye.receivePrevious c.previous
      if received ≠ .ok then (eye, .invalidTexture) else eye.captureIdle c := by
  unfold captureShared captureIdle transfers
  cases c.deferConsumer <;> simp [put]

theorem Agrees.refused (agrees : Agrees whole eye told) (c : SharedCapture m)
    {result : EVRCompositorError} (refused : result ≠ .none ∨ c.copyPixels = false) :
    Agrees whole eye (told.captures c result) := by
  rw [Told.captures, if_neg]
  · exact agrees
  · grind

theorem Agrees.failed (agrees : Agrees whole eye told) (c : SharedCapture m) :
    Agrees whole eye (told.captures c .invalidTexture) :=
  agrees.refused c (.inl (by decide))

theorem captureIdle_agrees (idle : eye.pending = false) (c : SharedCapture m)
    (copied : c.copyPixels = true) (ok : (transfers eye.handing c).2.1 = .ok) :
    Agrees whole (eye.captureIdle c).1 (told.captures c (eye.captureIdle c).2) := by
  unfold captureIdle
  cases deferred : c.deferConsumer with
  | true =>
    have enqueues : transfers eye.handing c = eye.handing.enqueue c.enqueueCall := if_pos deferred
    have tells : told.captures c .none = { awaited := some c.image } := by
      simp [Told.captures, copied, deferred]
    rw [enqueues] at ok ⊢
    rw [if_neg (not_not_intro ok), tells]
    have sent := (eye.handing.enqueue_sends c.enqueueCall rfl).done ok
    exact {
      shown := nofun
      waiting _ := ⟨rfl, c.image, rfl, sent, rfl, rfl⟩
      settled := nofun
      returned _ := nofun }
  | false =>
    have copies : transfers eye.handing c = eye.handing.copy c.enqueueCall c.receive :=
      if_neg (by simp [deferred])
    have tells : told.captures c .none = { readable := some c.image, returned := true } := by
      simp [Told.captures, copied, deferred]
    rw [copies] at ok ⊢
    rw [if_neg (not_not_intro ok), tells]
    have brought := eye.handing.copy_done c.enqueueCall c.receive rfl ok
    exact {
      shown _ := ⟨c.image, rfl, brought, rfl, rfl⟩
      waiting pending := by simp [idle] at pending
      settled _ := rfl
      returned _ _ := rfl }

theorem Agrees.captureIdle (agrees : Agrees whole eye told) (idle : eye.pending = false)
    (unbroken : eye.captured = true → eye.copy = some .privateTexture → c.deferConsumer = false → replaces (eye.handing.enqueue c.enqueueCall).2.2 = false → (eye.handing.enqueue c.enqueueCall).1.copies c.receive → ((eye.handing.enqueue c.enqueueCall).1.receive c.receive).2.1 = .ok)
    (copied : c.copyPixels = true) :
    Agrees whole (eye.captureIdle c).1 (told.captures c (eye.captureIdle c).2) := by
  by_cases ok : (transfers eye.handing c).2.1 = .ok
  · exact captureIdle_agrees idle c copied ok
  unfold SharedEye.captureIdle
  rw [if_pos ok]
  apply Agrees.failed _ c
  apply agrees.put _ (by simp [idle])
  intro captured shows kept
  cases deferred : c.deferConsumer with
  | true =>
    have enqueues : transfers eye.handing c = eye.handing.enqueue c.enqueueCall := if_pos deferred
    rw [enqueues] at kept ⊢
    exact (eye.handing.enqueue_sends c.enqueueCall rfl).output kept
  | false =>
    have copies : transfers eye.handing c = eye.handing.copy c.enqueueCall c.receive :=
      if_neg (by simp [deferred])
    rw [copies] at ok kept ⊢
    exact eye.handing.copy_output c.enqueueCall c.receive rfl ok kept
      (unbroken captured shows deferred)

/-- An eye that does not show the private texture keeps its picture while a hand-off is taken
over. -/
theorem Agrees.takesOver (agrees : Agrees whole eye told) (c : ReceiveCall)
    (hidden : eye.captured = true → eye.copy ≠ some .privateTexture) :
    Agrees whole { eye.put (eye.handing.receive c) with pending := false } told where
  shown captured := by
    obtain ⟨image, readable, content, described⟩ := agrees.shown captured
    have same := content_put (r := eye.handing.receive c) fun shows => absurd shows (hidden captured)
    exact ⟨image, readable, same.trans content, described⟩
  waiting := nofun
  settled := agrees.settled
  returned := agrees.returned

theorem Agrees.captureShared (agrees : Agrees whole eye told) (steady : eye.Steady c) :
    Agrees whole (eye.captureShared c).1 (told.captures c (eye.captureShared c).2) := by
  rw [captureShared_eq]
  split
  · rename_i refused
    exact agrees.refused c (.inl refused)
  rename_i accepted
  split
  · rename_i uncopied
    exact agrees.refused c (.inr (by simpa using uncopied))
  rename_i copied
  rw [Bool.not_eq_true', Bool.not_eq_false] at copied
  have steady := steady (not_not.mp accepted) copied
  have agrees := agrees.prepare c.initialized
  generalize eye.prepare c.initialized = prepared at steady agrees ⊢
  obtain ⟨eye, result⟩ := prepared
  dsimp only at steady agrees ⊢
  split
  · exact agrees.failed c
  rename_i ready
  have unbroken := steady (not_not.mp ready)
  obtain ⟨failed, stays⟩ | ⟨same, stage⟩ | ⟨done, copies⟩ := receivePrevious_cases agrees unbroken
  · rw [if_pos failed]
    exact stays.failed c
  · rw [same, if_neg (not_not_intro rfl)]
    exact agrees.captureIdle (agrees.idle stage)
      (fun captured shows => (unbroken captured shows).2 stage) copied
  · rw [done, if_neg (not_not_intro rfl)]
    by_cases shows : eye.captured = true ∧ eye.copy = some .privateTexture
    · exact captureIdle_agrees rfl c copied ((unbroken shows.1 shows.2).1 copies).2
    · have hidden (captured : eye.captured = true) : eye.copy ≠ some .privateTexture :=
        fun own => shows ⟨captured, own⟩
      have kept := (eye.handing.receive_brings c.previous).keeps
      apply (agrees.takesOver c.previous hidden).captureIdle rfl _ copied
      intro captured own
      rw [SharedEye.put, kept] at own
      exact absurd own (hidden captured)

theorem complete_cases (eye : SharedEye m) (c : ReceiveCall) :
    eye.pending = false ∧ eye.complete c = (eye, .ok) ∨
      eye.pending = true ∧ (eye.handing.receive c).2.1 ≠ .ok ∧ (eye.complete c).2 ≠ .ok ∧
        ((eye.complete c).1 = eye ∨ (eye.complete c).1 = eye.put (eye.handing.receive c)) ∨
      eye.pending = true ∧ (eye.handing.receive c).2.1 = .ok ∧
        eye.complete c =
          ({ eye.put (eye.handing.receive c) with
              copy := some .privateTexture, pending := false, captured := true }, .ok) := by
  unfold complete
  cases pending : eye.pending with
  | false => exact .inl ⟨rfl, rfl⟩
  | true =>
    cases made : eye.transfer with
    | none =>
      refine .inr (.inl ⟨rfl, fun ok => ?_, unexpected_ne_ok, .inl rfl⟩)
      have offered := ((eye.handing.receive_brings c).done ok).2.2
      rw [handing, made] at offered
      exact offered rfl
    | some t =>
      have handing : eye.handing = t := by
        rw [SharedEye.handing, made]
        rfl
      rw [handing]
      dsimp only
      by_cases ok : (t.receive c).2.1 = .ok
      · rw [if_neg (by simp), if_neg (not_not_intro ok)]
        exact .inr (.inr ⟨rfl, ok, rfl⟩)
      · rw [if_neg (by simp), if_pos ok]
        exact .inr (.inl ⟨rfl, ok, ok, .inr rfl⟩)

theorem complete_ok {eye : SharedEye m} {c : ReceiveCall}
    (ok : eye.pending = true → (eye.handing.receive c).2.1 = .ok) : (eye.complete c).2 = .ok := by
  obtain ⟨-, same⟩ | ⟨pending, failed, -⟩ | ⟨-, -, done⟩ := eye.complete_cases c
  · rw [same]
  · exact absurd (ok pending) failed
  · rw [done]

theorem Agrees.complete (agrees : Agrees whole eye told) (c : ReceiveCall) (result : Hresult)
    (returns : whole → eye.pending = true → (eye.handing.receive c).2.1 = .ok → result = .ok) :
    Agrees whole (eye.complete c).1 (told.completes (eye.complete c).2 result) := by
  have brings := eye.handing.receive_brings c
  obtain ⟨idle, same⟩ | ⟨pending, failed, error, kept⟩ | ⟨pending, ok, done⟩ := eye.complete_cases c
  · rw [same]
    cases captured : eye.captured with
    | false => exact .blank _ captured idle
    | true =>
      rw [Told.completes, agrees.settled captured, if_neg (by simp)]
      exact agrees
  · rw [Told.completes, if_neg fun both => error both.1]
    obtain same | same := kept <;> rw [same]
    · exact agrees
    · apply agrees.put _ fun _ => brings.failed failed
      simp [(agrees.waiting pending).1]
  · obtain ⟨-, image, awaited, offered, described⟩ := agrees.waiting pending
    rw [done, Told.completes, awaited, if_pos ⟨rfl, rfl⟩]
    exact {
      shown _ := ⟨image, rfl, (brings.done ok).2.1.trans offered, described⟩
      waiting := nofun
      settled _ := rfl
      returned stands _ := by simp [returns stands pending ok] }

theorem Agrees.reset : Agrees whole eye.reset ({} : Told m) := .blank _ rfl rfl

end SharedEye

/-- Where both eyes wait, the right eye's hand-off is received if the left eye's is. -/
def SharedPair.Together {m : Media} (pair : SharedPair m) (answers : Eye → ReceiveCall) : Prop :=
  (pair .left).pending = true → (pair .right).pending = true →
    ((pair .left).handing.receive (answers .left)).2.1 = .ok →
    ((pair .right).handing.receive (answers .right)).2.1 = .ok

namespace SharedRun

open SharedEye

variable {ι : Type} [DecidableEq ι] {m : Media} {whole : Prop}

def Steady (s : SharedRun ι m) : SharedCall ι m → Prop
  | .capture i eye c => (s.pairs i eye).Steady c
  | _ => True

def Together (s : SharedRun ι m) : SharedCall ι m → Prop
  | .completePending i answers => (s.pairs i).Together answers
  | _ => True

def Agrees (whole : Prop) (s : SharedRun ι m) : Prop :=
  ∀ i eye, SharedEye.Agrees whole (s.pairs i eye) (s.told i eye)

theorem round_agrees {pair : SharedPair m} {told : Eye → Told m} (answers : Eye → ReceiveCall)
    (agrees : ∀ eye, SharedEye.Agrees whole (pair eye) (told eye))
    (together : whole → pair.Together answers) (eye : Eye) :
    SharedEye.Agrees whole (pair.round answers eye).1
      ((told eye).completes (pair.round answers eye).2 (pair.round answers .right).2) := by
  cases eye with
  | left =>
    apply (agrees .left).complete
    intro stands pending ok
    have left : ((pair .left).complete (answers .left)).2 = .ok := complete_ok fun _ => ok
    rw [SharedPair.round, if_neg (not_not_intro left)]
    exact complete_ok fun waits => together stands pending waits ok
  | right =>
    rw [SharedPair.round]
    split
    · rename_i failed
      rw [Told.completes, if_neg fun both => failed both.1]
      exact agrees .right
    · exact (agrees .right).complete _ _ fun _ _ ok => complete_ok fun _ => ok

variable {s : SharedRun ι m}

theorem Agrees.perform (agrees : s.Agrees whole) {call : SharedCall ι m} (steady : s.Steady call)
    (together : whole → s.Together call) : (s.perform call).Agrees whole := by
  intro k eye
  cases call with
  | capture i e c =>
    unfold SharedRun.perform
    dsimp only
    by_cases same : k = i
    · subst same
      rw [Function.update_self, Function.update_self]
      by_cases this : eye = e
      · subst this
        rw [Function.update_self, Function.update_self]
        exact (agrees k eye).captureShared steady
      · rw [Function.update_of_ne this, Function.update_of_ne this]
        exact agrees k eye
    · rw [Function.update_of_ne same, Function.update_of_ne same]
      exact agrees k eye
  | completePending i answers =>
    unfold SharedRun.perform
    dsimp only
    by_cases same : k = i
    · subst same
      rw [Function.update_self, Function.update_self]
      exact round_agrees answers (agrees k) together eye
    · rw [Function.update_of_ne same, Function.update_of_ne same]
      exact agrees k eye
  | exchangeBuffers i j matching =>
    unfold SharedRun.perform
    dsimp only
    split
    · exact agrees k eye
    · dsimp only
      by_cases second : k = j
      · subst second
        rw [Function.update_self, Function.update_self]
        exact agrees i eye
      · rw [Function.update_of_ne second, Function.update_of_ne second]
        by_cases first : k = i
        · subst first
          rw [Function.update_self, Function.update_self]
          exact agrees j eye
        · rw [Function.update_of_ne first, Function.update_of_ne first]
          exact agrees k eye
  | reset i =>
    unfold SharedRun.perform
    dsimp only
    by_cases same : k = i
    · subst same
      rw [Function.update_self, Function.update_self]
      exact .reset
    · rw [Function.update_of_ne same, Function.update_of_ne same]
      exact agrees k eye

theorem Agrees.run (agrees : s.Agrees whole) (calls : List (SharedCall ι m))
    (steady : Each Steady s calls) (together : whole → Each Together s calls) :
    (calls.foldl SharedRun.perform s).Agrees whole := by
  induction calls generalizing s with
  | nil => exact agrees
  | cons call rest ih =>
    apply ih (agrees.perform steady.1 fun stands => (together stands).1) steady.2
    exact fun stands => (together stands).2

omit [DecidableEq ι] in
theorem agrees_init : ({} : SharedRun ι m).Agrees whole := fun _ _ => .blank _ rfl rfl

theorem captured_of_picture {eye : SharedEye m} (shows : eye.picture.texture ≠ none) :
    eye.captured = true := by
  cases captured : eye.captured with
  | true => rfl
  | false => simp [SharedEye.picture, captured] at shows

omit [DecidableEq ι] in
theorem Agrees.ofOneSubmission (agrees : s.Agrees whole) : s.OfOneSubmission := by
  intro i eye shows
  have captured := captured_of_picture shows
  obtain ⟨image, readable, content, bounds, colorSpace⟩ := (agrees i eye).shown captured
  refine ⟨image, readable, ?_⟩
  rw [SharedEye.picture, if_pos captured, content, bounds, colorSpace]
  rfl

/-- A captured eye is all of one submission in every run whose captures, where they write the
texture of a readable eye, do not fail; and where the pairs are also completed whole, the call
that made it readable returned a success. -/
theorem captured_eye_is_of_one_submission (calls : List (SharedCall ι m))
    (steady : Each Steady {} calls) :
    (performAll calls).OfOneSubmission ∧
      (Each Together {} calls → (performAll calls).Returned) := by
  constructor
  · have agrees : ({} : SharedRun ι m).Agrees False := agrees_init
    exact (agrees.run calls steady nofun).ofOneSubmission
  · intro together i eye shows
    have agrees : ({} : SharedRun ι m).Agrees True := agrees_init
    exact (agrees.run calls steady (fun _ => together) i eye).returned trivial
      (captured_of_picture shows)

/-! One eye, with images whose pixels and bounds are one number. -/

def numbered : Media where
  Pixels := Nat
  Bounds := Nat
  View := Unit
  Placement := Unit
  fullBounds := 0
  noPlacement := ()

/-- Every answer is a success, but what the mutex answers to each side. -/
def submission (n : Nat) (producer consumer : AcquireAnswer) : SharedCall Unit numbered :=
  .capture () .left
    { source :=
        { desc := ⟨4, 4, 1, 1, 1, 0, true, 0, .rgba8Unorm⟩, device := 1, pixels := n }
      bounds := n
      colorSpace := .auto
      initialized := ⟨true, some ⟨1, false⟩, some ⟨2, false⟩, true, true, true, true, true, true⟩
      previous := ⟨true, 100, .ok, none, none⟩
      enqueue :=
        { onOwner := true, source := none, timeoutMs := 100, polls := []
          creation := ⟨true, [.ok, .ok, .ok, .ok], (.ok, true), (.ok, true), (.ok, true), (.ok, true),
            ((0 : Nat), (0 : Nat))⟩
          invoked := .ran, acquire := producer, device := none, release := none }
      receive := ⟨true, 100, consumer, none, none⟩ }

/-- The third submission takes over the hand-off of the second and goes through. -/
theorem captured_eye_is_of_one_submission_taken_over :
    (performAll [submission 1 .ok .ok, submission 2 .ok .timeout, submission 3 .ok .ok]).OfOneSubmission ∧
      (performAll [submission 1 .ok .ok, submission 2 .ok .timeout, submission 3 .ok .ok]).Returned := by
  have steady : Each Steady {}
      [submission 1 .ok .ok, submission 2 .ok .timeout, submission 3 .ok .ok] := by
    refine ⟨fun _ _ _ captured => ?_, fun _ _ _ _ _ => ⟨fun copied => ?_, fun _ _ _ copied => ?_⟩,
      fun _ _ _ _ _ => ⟨fun _ => ⟨rfl, rfl⟩, fun stage => ?_⟩, trivial⟩
    · cases captured
    · exact nomatch copied.2.2.2.2.1
    · exact nomatch copied.2.2.2.2.2
    · cases stage
  have run := captured_eye_is_of_one_submission _ steady
  exact ⟨run.1, run.2 ⟨trivial, trivial, trivial, trivial⟩⟩

/-- The third submission takes over the hand-off of the second, and is then refused by the
producer's mutex: the eye shows the second with the bounds of the first. -/
theorem captured_eye_mixes_submissions :
    ((performAll [submission 1 .ok .ok, submission 2 .ok .timeout, submission 3 .timeout .ok]).pairs
        () .left).picture = ⟨some (2 : Nat), (1 : Nat), .auto⟩ ∧
      ¬(performAll
        [submission 1 .ok .ok, submission 2 .ok .timeout, submission 3 .timeout .ok]).OfOneSubmission := by
  have mixed : ((performAll [submission 1 .ok .ok, submission 2 .ok .timeout,
      submission 3 .timeout .ok]).pairs () .left).picture = ⟨some (2 : Nat), (1 : Nat), .auto⟩ := rfl
  have told : ((performAll [submission 1 .ok .ok, submission 2 .ok .timeout,
      submission 3 .timeout .ok]).told () .left).readable =
      some ⟨(1 : Nat), (1 : Nat), .auto⟩ := rfl
  refine ⟨mixed, fun one => ?_⟩
  obtain ⟨image, readable, same⟩ := one () .left (by rw [mixed]; exact nofun)
  rw [told, Option.some.injEq] at readable
  rw [mixed, ← readable] at same
  exact absurd (Option.some.inj (congrArg Picture.texture same)) (show (2 : Nat) ≠ 1 by decide)

end SharedRun

end EdvrPatch.OpenXr
