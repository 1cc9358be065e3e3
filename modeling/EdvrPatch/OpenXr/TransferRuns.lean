import EdvrPatch.Lib.Monitor
import EdvrPatch.OpenXr.TextureTransfer

/-! The key of the shared texture. While the transfer is not faulted, the mutex is free
between calls, at key 1 when a hand-off is pending and at key 0 when none is. -/
namespace EdvrPatch.OpenXr

open Lib

variable {P : Type}

structure TransferView (P : Type) where
  pending : Option P := none
  faulted : Bool := false

/-- No mutex is asked for after a fault; resources are replaced, and pixels are handed
over, only while no hand-off is pending; and what is received is the pending one. -/
def transferProtocol : Monitor (TransferView P) (TransferEvent P) where
  advance v
    | .faults => { v with faulted := true }
    | .enqueued pixels => { v with pending := some pixels }
    | .received _ => { v with pending := none }
    | .discarded => { v with pending := none }
    | .acquires _ | .replaces => v
  allows v
    | .acquires _ => v.faulted = false
    | .replaces => v.pending = none
    | .enqueued _ => v.pending = none
    | .received pixels => v.pending = some pixels
    | .faults | .discarded => True

namespace Transfer

def handed (log : List (TransferEvent P)) : List (TransferEvent P) :=
  log.filter fun e => match e with
    | .enqueued _ | .received _ => true
    | _ => false

theorem handed_append (log more : List (TransferEvent P)) : handed (log ++ more) = handed log ++ handed more :=
  List.filter_append ..

def handOff (t : Transfer P) : Option P :=
  if t.pendingStage = .consumerAcquire then t.slot.map TransferSlot.pixels else none

structure Whole (t : Transfer P) (v : TransferView P) : Prop where
  handOff : v.pending = t.handOff
  free : ∀ s ∈ t.slot, s.mutex = { key := if t.pendingStage = .consumerAcquire then 1 else 0 }
  kept : t.pendingStage = .consumerAcquire → t.hasResources = true

structure Linked (t : Transfer P) (v : TransferView P) : Prop where
  faulted : v.faulted = t.faulted
  whole : t.faulted = false → t.Whole v

theorem init_linked : ({} : Transfer P).Linked {} :=
  ⟨rfl, fun _ => ⟨rfl, nofun, nofun⟩⟩

structure Keeps (v : TransferView P) (r : Transferred P) : Prop where
  admitted : transferProtocol.Admits v r.2.2
  linked : r.1.Linked (transferProtocol.after v r.2.2)

theorem Linked.stays {t : Transfer P} {v : TransferView P} (linked : t.Linked v) (result : Hresult) :
    Keeps v (t, result, []) :=
  ⟨trivial, linked⟩

theorem Keeps.andThen {v : TransferView P} {t t' : Transfer P} {first second : Hresult}
    {log more : List (TransferEvent P)} (kept : Keeps v (t, first, log))
    (later : Keeps (transferProtocol.after v log) (t', second, more)) : Keeps v (t', second, log ++ more) := by
  refine ⟨(Monitor.admits_append _ _ _ _).mpr ⟨kept.admitted, later.admitted⟩, ?_⟩
  have linked := later.linked
  rwa [← Monitor.after_append] at linked

theorem Linked.faults {t : Transfer P} (v : TransferView P) (faulted : t.faulted = true) :
    t.Linked (transferProtocol.advance v .faults) :=
  ⟨faulted.symm, fun whole => nomatch faulted.symm.trans whole⟩

end Transfer

theorem Failure.ne_ok (f : Failure) : f.code ≠ .ok := by
  intro same
  have failed := f.failed
  rw [same] at failed
  cases failed

theorem Failure.ne_waitTimeout (f : Failure) : f.code ≠ .waitTimeout := by
  intro same
  have failed := f.failed
  rw [same] at failed
  cases failed

theorem invalidArg_ne_ok : Hresult.invalidArg ≠ .ok := by decide

theorem unexpected_ne_ok : Hresult.unexpected ≠ .ok := by decide

theorem waitTimeout_ne_ok : Hresult.waitTimeout ≠ .ok := by decide

theorem abandoned_ne_ok : Hresult.waitAbandoned ≠ .ok := by decide

theorem abandoned_ne_waitTimeout : Hresult.waitAbandoned ≠ .waitTimeout := by decide

theorem ne_ok_of_failed {r : Hresult} (failed : r.failed = true) : r ≠ .ok :=
  Failure.ne_ok ⟨r, failed⟩

namespace Transfer

variable {t : Transfer P} {v : TransferView P}

/-! The drain and the resources. -/

theorem drains_cases (timeoutMs : Nat) (polls : List DrainPoll) :
    (∃ r, (r = .ok ∨ r = .errorTimeout) ∧ drains timeoutMs polls = (false, r)) ∨
      ∃ r, r ≠ .ok ∧ drains timeoutMs polls = (true, r) := by
  induction polls with
  | nil => exact .inl ⟨_, .inr rfl, rfl⟩
  | cons poll rest ih =>
    unfold drains
    split
    · exact .inr ⟨_, Failure.ne_ok _, rfl⟩
    · split
      · exact .inl ⟨_, .inl rfl, rfl⟩
      · split
        · rename_i failed
          exact .inr ⟨_, ne_ok_of_failed failed, rfl⟩
        · split
          · exact .inl ⟨_, .inr rfl, rfl⟩
          · exact ih

theorem drainConsumer_cases (t : Transfer P) (timeoutMs : Nat) (polls : List DrainPoll) :
    (∃ r, (r = .ok ∨ r = .errorTimeout) ∧ t.drainConsumer timeoutMs polls = (t, r, [])) ∨
      ∃ r, r ≠ .ok ∧ t.drainConsumer timeoutMs polls = (t.fault, r, [.faults]) := by
  unfold drainConsumer
  split
  · exact .inl ⟨_, .inl rfl, rfl⟩
  · split
    · exact .inr ⟨_, by decide, rfl⟩
    · obtain ⟨r, result, found⟩ | ⟨r, result, found⟩ := drains_cases timeoutMs polls <;> rw [found]
      · exact .inl ⟨r, result, rfl⟩
      · exact .inr ⟨r, result, rfl⟩

theorem createResources_cases (t : Transfer P) (d : TextureDesc) (family : PixelFamily) (timeoutMs : Nat)
    (polls : List DrainPoll) (c : Creation P) :
    (∃ r, t.createResources d family timeoutMs polls c = (t, r, [])) ∨
      (∃ r, r ≠ .ok ∧ t.createResources d family timeoutMs polls c = (t.fault, r, [.faults])) ∨
      t.createResources d family timeoutMs polls c =
        ({ t with slot := some (newSlot d family c) }, .ok, [.replaces]) := by
  have drained : (∃ r, (if t.hasResources then t.drainConsumer timeoutMs polls else (t, .ok, [])) = (t, r, [])) ∨
      ∃ r, r ≠ .ok ∧
        (if t.hasResources then t.drainConsumer timeoutMs polls else (t, .ok, [])) = (t.fault, r, [.faults]) := by
    split
    · obtain ⟨r, -, found⟩ | ⟨r, result, found⟩ := t.drainConsumer_cases timeoutMs polls
      · exact .inl ⟨r, found⟩
      · exact .inr ⟨r, result, found⟩
    · exact .inl ⟨_, rfl⟩
  unfold createResources
  split
  · exact .inl ⟨_, rfl⟩
  · obtain ⟨r, found⟩ | ⟨r, result, found⟩ := drained <;> rw [found] <;> dsimp only
    · split
      · exact .inl ⟨_, rfl⟩
      · split
        · exact .inl ⟨_, rfl⟩
        · split
          · exact .inl ⟨_, rfl⟩
          · split
            · exact .inl ⟨_, rfl⟩
            · exact .inr (.inr rfl)
    · rw [if_pos result]
      exact .inr (.inl ⟨r, result, rfl⟩)

theorem createResources_after (t : Transfer P) (d : TextureDesc) (family : PixelFamily) (timeoutMs : Nat)
    (polls : List DrainPoll) (c : Creation P) :
    (t.createResources d family timeoutMs polls c).1.pendingStage = t.pendingStage ∧
      ((t.createResources d family timeoutMs polls c).2.1 = .ok →
        (t.createResources d family timeoutMs polls c).1.faulted = t.faulted) := by
  obtain ⟨r, found⟩ | ⟨r, error, found⟩ | found := t.createResources_cases d family timeoutMs polls c <;> rw [found]
  · exact ⟨rfl, fun _ => rfl⟩
  · exact ⟨rfl, fun ok => absurd ok error⟩
  · exact ⟨rfl, fun _ => rfl⟩

theorem Linked.createResources (linked : t.Linked v) (whole : t.faulted = false) (idle : t.pendingStage = .none)
    (d : TextureDesc) (family : PixelFamily) (timeoutMs : Nat) (polls : List DrainPoll) (c : Creation P) :
    Keeps v (t.createResources d family timeoutMs polls c) := by
  have none : v.pending = none := by
    rw [(linked.whole whole).handOff, handOff, idle]
    rfl
  obtain ⟨r, found⟩ | ⟨r, -, found⟩ | found := t.createResources_cases d family timeoutMs polls c <;> rw [found]
  · exact linked.stays r
  · exact ⟨⟨trivial, trivial⟩, Linked.faults v rfl⟩
  · refine ⟨⟨none, trivial⟩, linked.faulted, fun _ => ⟨?_, ?_, ?_⟩⟩
    · change v.pending = _
      rw [none, handOff, idle]
      rfl
    · rintro s ⟨⟩
      rw [idle]
      rfl
    · rw [idle]
      exact nofun

/-! The producer. -/

theorem producerCallback_cases {s : TransferSlot P} (free : s.mutex = { key := 0 }) (source : P) (c : EnqueueCall P) :
    (producerCallback s source c).2.1 = false ∨
      producerCallback s source c = (s, true, .waitTimeout) ∨
      ((producerCallback s source c).2.1 = true ∧ (producerCallback s source c).2.2 ≠ .ok ∧
        (producerCallback s source c).2.2 ≠ .waitTimeout) ∨
      producerCallback s source c = ({ s with mutex := { key := 1 }, pixels := source }, true, .ok) := by
  unfold producerCallback
  split
  · exact .inl rfl
  · cases answer : c.acquire with
    | timeout => exact .inr (.inl rfl)
    | abandoned => exact .inr (.inr (.inl ⟨rfl, abandoned_ne_ok, abandoned_ne_waitTimeout⟩))
    | error f =>
      refine .inr (.inr (.inl ?_))
      dsimp only [KeyedMutex.acquireSync]
      rw [if_pos f.ne_ok]
      exact ⟨rfl, f.ne_ok, f.ne_waitTimeout⟩
    | ok =>
      have acquired : s.mutex.acquireSync .producer 0 .ok = ({ key := 0, owner := some .producer }, .ok) := by
        rw [free]
        rfl
      rw [acquired]
      dsimp only
      rw [if_neg (not_not_intro rfl)]
      split
      · exact .inl rfl
      · split
        · exact .inl rfl
        · cases device : c.device with
          | some f => exact .inr (.inr (.inl ⟨rfl, f.ne_ok, f.ne_waitTimeout⟩))
          | none =>
            cases release : c.release with
            | some f => exact .inr (.inr (.inl ⟨rfl, f.ne_ok, f.ne_waitTimeout⟩))
            | none => exact .inr (.inr (.inr rfl))

theorem Linked.producerCopy (linked : t.Linked v) (whole : t.faulted = false) (idle : t.pendingStage = .none)
    (source : P) (c : EnqueueCall P) :
    Keeps v (t.producerCopy source c) ∧
      ((t.producerCopy source c).2.1 ≠ .ok → (t.producerCopy source c).1.pendingStage = .none) ∧
      ((t.producerCopy source c).2.1 = .ok → (t.producerCopy source c).1.handOff = some source) := by
  have isWhole := linked.whole whole
  have none : v.pending = none := by
    rw [isWhole.handOff, handOff, idle]
    rfl
  have unfaulted : v.faulted = false := linked.faulted.trans whole
  have asked : transferProtocol.Admits v
      (if c.invoked = .threw .beforeAcquire then [] else [TransferEvent.acquires .producer]) := by
    split
    · trivial
    · exact ⟨unfaulted, trivial⟩
  have same : transferProtocol.after v
      (if c.invoked = .threw .beforeAcquire then [] else [TransferEvent.acquires .producer]) = v := by
    split <;> rfl
  unfold Transfer.producerCopy
  split
  · exact ⟨linked.stays _, fun _ => idle, nofun⟩
  · rename_i s isSlot
    have free : s.mutex = { key := 0 } := by
      have free := isWhole.free s isSlot
      rwa [idle] at free
    split
    · exact ⟨linked.stays _, fun _ => idle, nofun⟩
    · rename_i resources
      have has : (s.sharedProducer && s.producerMutex) = true := by
        unfold hasResources at resources
        rw [isSlot] at resources
        simpa using resources
      split
      · exact ⟨linked.stays _, fun _ => idle, nofun⟩
      · generalize (if c.invoked = .threw .beforeAcquire then [] else [TransferEvent.acquires .producer]) = log at asked same ⊢
        have faults : ∀ (t' : Transfer P) (r : Hresult), t'.faulted = true →
            Keeps v (t', r, log ++ [TransferEvent.faults]) := by
          intro t' r faulted
          refine ⟨(Monitor.admits_append _ _ _ _).mpr ⟨asked, trivial, trivial⟩, ?_⟩
          rw [Monitor.after_append, same]
          exact Linked.faults v faulted
        have cases := producerCallback_cases free source c
        generalize producerCallback s source c = called at cases ⊢
        obtain ⟨s', completed, result⟩ := called
        obtain unfinished | timedOut | ⟨finished, error, untimed⟩ | done := cases
        · cases unfinished
          exact ⟨faults _ _ rfl, fun _ => idle, nofun⟩
        · cases timedOut
          refine ⟨⟨asked, ?_⟩, fun _ => rfl, nofun⟩
          change Linked _ (transferProtocol.after v log)
          rw [same]
          refine ⟨linked.faulted, fun _ => ⟨?_, ?_, nofun⟩⟩
          · rw [none]
            rfl
          · rintro s ⟨⟩
            exact free
        · cases finished
          dsimp only at error untimed ⊢
          rw [if_neg (by decide), if_neg untimed, if_pos error]
          exact ⟨faults _ _ rfl, fun _ => idle, fun ok => absurd ok error⟩
        · cases done
          refine ⟨⟨(Monitor.admits_append _ _ _ _).mpr ⟨asked, ?_, trivial⟩, ?_⟩, fun error => absurd rfl error, fun _ => rfl⟩
          · rw [same]
            exact none
          · change Linked _ (transferProtocol.after v (log ++ [TransferEvent.enqueued source]))
            rw [Monitor.after_append, same]
            refine ⟨linked.faulted, fun _ => ⟨rfl, ?_, fun _ => has⟩⟩
            rintro s ⟨⟩
            rfl

theorem handOff_idle (idle : t.pendingStage = .none) : t.handOff = none := by
  rw [handOff, idle]
  rfl

theorem createResources_quiet (t : Transfer P) (d : TextureDesc) (family : PixelFamily) (timeoutMs : Nat)
    (polls : List DrainPoll) (c : Creation P) :
    handed (t.createResources d family timeoutMs polls c).2.2 = [] := by
  obtain ⟨r, found⟩ | ⟨r, -, found⟩ | found := t.createResources_cases d family timeoutMs polls c <;> rw [found] <;> rfl

theorem producerCopy_hands (t : Transfer P) (source : P) (c : EnqueueCall P) :
    handed (t.producerCopy source c).2.2 =
      if (t.producerCopy source c).2.1 = .ok then [.enqueued source] else [] := by
  have asked : handed (if c.invoked = .threw .beforeAcquire then [] else [TransferEvent.acquires (P := P) .producer]) = [] := by
    split <;> rfl
  unfold Transfer.producerCopy
  split
  · rfl
  split
  · rfl
  split
  · rfl
  dsimp only
  split
  · rw [handed_append, asked]
    rfl
  split
  · rename_i timedOut
    dsimp only
    rw [asked, timedOut]
    rfl
  split
  · rw [handed_append, asked]
    rfl
  · rw [handed_append, asked]
    rfl

/-- An enqueue is refused, or makes the resources it needs and then copies. -/
theorem enqueue_cases (t : Transfer P) (c : EnqueueCall P) :
    (∃ r, r ≠ .ok ∧ t.enqueue c = (t, r, [])) ∨
    ∃ source family, c.source = some source ∧ t.faulted = false ∧ t.pendingStage = .none ∧
      t.enqueue c =
        let made := t.createResources source.desc family c.timeoutMs c.polls c.creation
        let copied := made.1.producerCopy source.pixels c
        if made.2.1 ≠ .ok then made else (copied.1, copied.2.1, made.2.2 ++ copied.2.2) := by
  generalize isResult : t.enqueue c = result
  unfold Transfer.enqueue at isResult
  split at isResult
  · exact .inl ⟨_, by decide, isResult.symm⟩
  split at isResult
  · exact .inl ⟨_, by decide, isResult.symm⟩
  split at isResult
  · exact .inl ⟨_, by decide, isResult.symm⟩
  rename_i usable
  split at isResult
  · exact .inl ⟨_, by decide, isResult.symm⟩
  rename_i unpending
  split at isResult
  · exact .inl ⟨_, by decide, isResult.symm⟩
  rename_i source isSource
  split at isResult
  · exact .inl ⟨_, by decide, isResult.symm⟩
  rename_i family _
  split at isResult
  · exact .inl ⟨_, by decide, isResult.symm⟩
  split at isResult
  · exact .inl ⟨_, by decide, isResult.symm⟩
  · exact .inr ⟨source, family, isSource, by simp_all, Decidable.not_not.mp unpending, isResult.symm⟩

theorem enqueue_hands (t : Transfer P) (c : EnqueueCall P) :
    if (t.enqueue c).2.1 = .ok then
      ∃ source, c.source = some source ∧ handed (t.enqueue c).2.2 = [.enqueued source.pixels]
    else handed (t.enqueue c).2.2 = [] := by
  obtain ⟨r, error, refused⟩ | ⟨source, family, isSource, -, -, enqueues⟩ := t.enqueue_cases c
  · rw [refused, if_neg error]
    rfl
  rw [enqueues]
  have quiet := t.createResources_quiet source.desc family c.timeoutMs c.polls c.creation
  generalize t.createResources source.desc family c.timeoutMs c.polls c.creation = made at quiet ⊢
  dsimp only
  split
  · exact quiet
  · rw [handed_append, quiet, made.1.producerCopy_hands source.pixels c]
    split
    · exact ⟨source, isSource, rfl⟩
    · rfl

theorem Linked.enqueue (linked : t.Linked v) (c : EnqueueCall P) :
    Keeps v (t.enqueue c) ∧ ((t.enqueue c).2.1 ≠ .ok → (t.enqueue c).1.handOff = t.handOff) ∧
      ((t.enqueue c).2.1 = .ok → t.handOff = none ∧
        ∃ source, c.source = some source ∧ (t.enqueue c).1.handOff = some source.pixels) := by
  obtain ⟨r, error, refused⟩ | ⟨source, family, isSource, whole, idle, enqueues⟩ := t.enqueue_cases c
  · rw [refused]
    exact ⟨linked.stays r, fun _ => rfl, fun ok => absurd ok error⟩
  rw [enqueues, handOff_idle idle]
  have created := linked.createResources whole idle source.desc family c.timeoutMs c.polls c.creation
  obtain ⟨stage, unfaulted⟩ := t.createResources_after source.desc family c.timeoutMs c.polls c.creation
  generalize t.createResources source.desc family c.timeoutMs c.polls c.creation = made
    at created stage unfaulted ⊢
  have idle' : made.1.pendingStage = .none := stage.trans idle
  dsimp only
  split
  · rename_i error
    exact ⟨created, fun _ => handOff_idle idle', fun ok => absurd ok error⟩
  · rename_i done
    obtain ⟨kept, failed, copied⟩ := created.linked.producerCopy
      ((unfaulted (Decidable.not_not.mp done)).trans whole) idle' source.pixels c
    exact ⟨created.andThen kept, fun error => handOff_idle (failed error),
      fun ok => ⟨rfl, source, isSource, copied ok⟩⟩

/-! The consumer. -/

/-- What the consumer leaves: the hand-off as it was, or its pixels in the private
texture. -/
def Consumed (t : Transfer P) (v : TransferView P) (r : Transferred P) : Prop :=
  (r.2.1 ≠ .ok ∧ Keeps v r ∧ r.1.handOff = t.handOff) ∨
    ∃ pixels, t.handOff = some pixels ∧ r.2.1 = .ok ∧ r.2.2 = [.acquires .consumer] ∧ r.1.output = some pixels ∧
      r.1.pendingStage = .none ∧ r.1.initialized = t.initialized ∧ r.1.faulted = false ∧
      r.1.Linked { v with pending := none }

theorem Linked.consume (linked : t.Linked v) (whole : t.faulted = false) (pending : t.pendingStage = .consumerAcquire)
    (c : ReceiveCall) : t.Consumed v (t.consume c) := by
  have isWhole := linked.whole whole
  have unfaulted : v.faulted = false := linked.faulted.trans whole
  unfold Transfer.consume
  split
  · exact .inl ⟨invalidArg_ne_ok, linked.stays _, rfl⟩
  · rename_i s isSlot
    have free : s.mutex = { key := 1 } := by
      have free := isWhole.free s isSlot
      rwa [if_pos pending] at free
    have offered : t.handOff = some s.pixels := by
      rw [handOff, if_pos pending, isSlot]
      rfl
    -- A fault leaves the stage and the pixels of the shared texture alone.
    have faults : ∀ (t' : Transfer P) (r : Hresult), t'.faulted = true → r ≠ .ok → t'.handOff = t.handOff →
        t.Consumed v (t', r, [.acquires .consumer, .faults]) := by
      intro t' r faulted error same
      exact .inl ⟨error, ⟨⟨unfaulted, trivial, trivial⟩, Linked.faults v faulted⟩, same⟩
    have stage : ∀ s' : TransferSlot P, s'.pixels = s.pixels →
        ({ t with slot := some s', faulted := true } : Transfer P).handOff = t.handOff := by
      intro s' pixels
      rw [offered, handOff, if_pos pending, ← pixels]
      rfl
    split
    · exact .inl ⟨invalidArg_ne_ok, linked.stays _, rfl⟩
    · cases answer : c.acquire with
      | timeout =>
        have same : ({ t with slot := some s, pendingStage := .consumerAcquire } : Transfer P) = t := by
          rw [← isSlot, ← pending]
        refine .inl ⟨waitTimeout_ne_ok, ⟨⟨unfaulted, trivial⟩, ?_⟩, ?_⟩
        · exact same ▸ linked
        · exact congrArg handOff same
      | abandoned => exact faults _ _ rfl abandoned_ne_ok (stage _ rfl)
      | error f =>
        dsimp only [KeyedMutex.acquireSync]
        rw [if_neg f.ne_waitTimeout, if_pos f.ne_ok]
        exact faults _ _ rfl f.ne_ok (stage _ rfl)
      | ok =>
        have acquired : s.mutex.acquireSync .consumer 1 .ok = ({ key := 1, owner := some .consumer }, .ok) := by
          rw [free]
          rfl
        rw [acquired]
        dsimp only
        cases device : c.device with
        | some f =>
          rw [if_pos f.ne_ok]
          exact faults _ _ rfl f.ne_ok (stage _ rfl)
        | none =>
          cases release : c.release with
          | some f =>
            change t.Consumed v (if f.code ≠ .ok then _ else _)
            rw [if_pos f.ne_ok]
            exact faults _ _ rfl f.ne_ok (stage _ rfl)
          | none =>
            refine .inr ⟨s.pixels, offered, rfl, rfl, rfl, rfl, rfl, whole, linked.faulted, fun _ => ⟨rfl, ?_, nofun⟩⟩
            rintro s ⟨⟩
            rfl

theorem receiveInternal_quiet (t : Transfer P) (c : ReceiveCall) : handed (t.receiveInternal c).1.2.2 = [] := by
  have quiet : handed (t.consume c).2.2 = [] := by
    unfold Transfer.consume
    split
    · rfl
    split
    · rfl
    dsimp only
    split
    · rfl
    split
    · rfl
    split
    · split <;> rfl
    · split <;> rfl
  unfold Transfer.receiveInternal
  split
  · rfl
  dsimp only
  split
  · exact quiet
  split <;> exact quiet

theorem Linked.receiveInternal (linked : t.Linked v) (whole : t.faulted = false) (c : ReceiveCall) :
    (t.receiveInternal c).1.2.1 ≠ .ok ∧ (t.receiveInternal c).2 = none ∧ Keeps v (t.receiveInternal c).1 ∧
        (t.receiveInternal c).1.1.handOff = t.handOff ∨
      t.Consumed v (t.receiveInternal c).1 ∧ (t.receiveInternal c).1.2.1 = .ok ∧
        (t.receiveInternal c).2 = t.handOff := by
  unfold Transfer.receiveInternal
  split
  · exact .inl ⟨unexpected_ne_ok, rfl, linked.stays _, rfl⟩
  · rename_i stage
    have consumed := linked.consume whole (Decidable.not_not.mp stage) c
    generalize t.consume c = r at consumed ⊢
    obtain ⟨t', result, log⟩ := r
    obtain ⟨error, kept, same⟩ | ⟨pixels, offered, ok, isLog, output, rest⟩ := consumed
    · dsimp only at error ⊢
      rw [if_pos error]
      exact .inl ⟨error, rfl, kept, same⟩
    · dsimp only at ok isLog output rest ⊢
      rw [if_neg (not_not_intro ok), output]
      exact .inr ⟨.inr ⟨pixels, offered, rfl, isLog, output, rest⟩, rfl, offered.symm⟩

/-- A receive gives out the pending pixels exactly when it succeeds, and leaves them
pending when it fails. -/
theorem Linked.receive (linked : t.Linked v) (c : ReceiveCall) :
    Keeps v (t.receive c) ∧ ((t.receive c).2.1 ≠ .ok → (t.receive c).1.handOff = t.handOff) ∧
      if (t.receive c).2.1 = .ok then ∃ pixels, t.handOff = some pixels ∧
        (t.receive c).1.output = some pixels ∧ handed (t.receive c).2.2 = [.received pixels]
      else handed (t.receive c).2.2 = [] := by
  unfold Transfer.receive
  split
  · exact ⟨linked.stays _, fun _ => rfl, rfl⟩
  · split
    · exact ⟨linked.stays _, fun _ => rfl, rfl⟩
    · split
      · exact ⟨linked.stays _, fun _ => rfl, rfl⟩
      · rename_i usable
        have whole : t.faulted = false := by simp_all
        have received := linked.receiveInternal whole c
        have quiet := t.receiveInternal_quiet c
        generalize t.receiveInternal c = r at received quiet ⊢
        obtain ⟨⟨t', result, log⟩, output⟩ := r
        obtain ⟨error, none, kept, same⟩ | ⟨consumed, ok, isOutput⟩ := received
        · cases none
          refine ⟨kept, fun _ => same, ?_⟩
          rw [if_neg error]
          exact quiet
        · obtain ⟨error, -⟩ | ⟨pixels, offered, -, isLog, given, -, -, -, linked'⟩ := consumed
          · exact absurd ok error
          · dsimp only at ok isLog isOutput given linked'
            rw [offered] at isOutput
            subst isOutput isLog
            have pending : v.pending = some pixels := (linked.whole whole).handOff.trans offered
            refine ⟨⟨⟨linked.faulted.trans whole, pending, trivial⟩, linked'⟩, fun error => absurd ok error, ?_⟩
            rw [if_pos ok]
            exact ⟨pixels, offered, given, rfl⟩

theorem Linked.copy (linked : t.Linked v) (e : EnqueueCall P) (c : ReceiveCall) :
    Keeps v (t.copy e c) ∧ ((t.copy e c).2.1 ≠ .ok → (t.copy e c).1.handOff = t.handOff ∨
      t.handOff = none ∧ ∃ source, e.source = some source ∧ (t.copy e c).1.handOff = some source.pixels) := by
  have queued := linked.enqueue e
  unfold Transfer.copy
  generalize t.enqueue e = r at queued ⊢
  obtain ⟨t', result, log⟩ := r
  obtain ⟨kept, failed, done⟩ := queued
  dsimp only at failed done ⊢
  split
  · rename_i ok
    have received := kept.linked.receive c
    generalize t'.receive c = r at received ⊢
    obtain ⟨t'', result', more⟩ := r
    obtain ⟨idle, source, isSource, offered⟩ := done ok
    exact ⟨kept.andThen received.1, fun error => .inr ⟨idle, source, isSource, (received.2.1 error).trans offered⟩⟩
  · exact ⟨kept, fun error => .inl (failed error)⟩

theorem Linked.copy_hands (linked : t.Linked v) (e : EnqueueCall P) (c : ReceiveCall) :
    if (t.copy e c).2.1 = .ok then ∃ source, e.source = some source ∧ (t.copy e c).1.output = some source.pixels ∧
      handed (t.copy e c).2.2 = [.enqueued source.pixels, .received source.pixels]
    else handed (t.copy e c).2.2 = [] ∨
      ∃ source, e.source = some source ∧ handed (t.copy e c).2.2 = [.enqueued source.pixels] := by
  obtain ⟨kept, -, done⟩ := linked.enqueue e
  have hands := t.enqueue_hands e
  unfold Transfer.copy
  generalize t.enqueue e = r at kept done hands ⊢
  obtain ⟨t', result, log⟩ := r
  dsimp only at done hands ⊢
  split
  · rename_i ok
    rw [if_pos ok] at hands
    obtain ⟨source, isSource, hands⟩ := hands
    obtain ⟨-, source', isSource', offered⟩ := done ok
    cases isSource.symm.trans isSource'
    obtain ⟨-, -, receives⟩ := kept.linked.receive c
    generalize t'.receive c = r at receives ⊢
    obtain ⟨t'', result', more⟩ := r
    dsimp only at receives ⊢
    split
    · rename_i ok'
      rw [if_pos ok'] at receives
      obtain ⟨pixels, pending, given, received⟩ := receives
      cases offered.symm.trans pending
      exact ⟨source, isSource, given, by rw [handed_append, hands, received]; rfl⟩
    · rename_i error
      rw [if_neg error] at receives
      exact .inr ⟨source, isSource, by rw [handed_append, hands, receives]; rfl⟩
  · rename_i error
    rw [if_neg error] at hands
    exact .inl hands

/-! The shutdown. -/

theorem closes_cases (t : Transfer P) (c : ShutdownCall) :
    (∃ r, r ≠ .ok ∧ r ≠ .pending ∧ t.closes c = (t, r, [])) ∨
      (∃ r, r ≠ .ok ∧ t.closes c = (t.fault, r, [.faults])) ∨
      t.closes c =
        ({ t with slot := none, pendingStage := .none, producer := none, initialized := false }, .ok, []) := by
  unfold closes
  obtain ⟨r, rfl | rfl, found⟩ | ⟨r, error, found⟩ := t.drainConsumer_cases c.timeoutMs c.polls <;> rw [found]
  · exact .inr (.inr rfl)
  · exact .inl ⟨_, by decide, by decide, rfl⟩
  · dsimp only
    rw [if_pos error]
    exact .inr (.inl ⟨r, error, rfl⟩)

theorem Linked.closes (linked : t.Linked v) (idle : t.pendingStage = .none) (whole : t.faulted = false) (c : ShutdownCall) :
    Keeps v (t.closes c) ∧ (t.closes c).1.handOff = none ∧
      ((t.closes c).2.1 = .pending → (t.closes c).1.faulted = true) := by
  have none : v.pending = none := (linked.whole whole).handOff.trans (handOff_idle idle)
  obtain ⟨r, -, unpending, found⟩ | ⟨r, -, found⟩ | found := t.closes_cases c <;> rw [found]
  · exact ⟨linked.stays r, handOff_idle idle, fun pending => absurd pending unpending⟩
  · exact ⟨⟨⟨trivial, trivial⟩, Linked.faults v rfl⟩, handOff_idle idle, fun _ => rfl⟩
  · exact ⟨⟨trivial, linked.faulted, fun _ => ⟨none, nofun, nofun⟩⟩, rfl, nofun⟩

theorem shutdown_quiet (t : Transfer P) (c : ShutdownCall) : handed (t.shutdown c).2.2 = [] := by
  have quiet := t.receiveInternal_quiet c.receive
  have closes (t : Transfer P) : handed (t.closes c).2.2 = [] := by
    obtain ⟨r, -, -, found⟩ | ⟨r, -, found⟩ | found := t.closes_cases c <;> rw [found] <;> rfl
  unfold Transfer.shutdown
  split
  · rfl
  split
  · rfl
  split
  · rfl
  split
  · rfl
  split
  · dsimp only
    split
    · exact quiet
    · rw [handed_append, handed_append, quiet, closes]
      rfl
  · exact closes t

/-- A shutdown that fails has left the hand-off as it was, or received it; one that waits
for it in vain has left it. -/
theorem Linked.shutdown (linked : t.Linked v) (c : ShutdownCall) :
    Keeps v (t.shutdown c) ∧ ((t.shutdown c).1.handOff = t.handOff ∨ (t.shutdown c).1.handOff = none) ∧
      ((t.shutdown c).2.1 = .pending → (t.shutdown c).1.faulted = false →
        (t.shutdown c).1.handOff = t.handOff) := by
  unfold Transfer.shutdown
  split
  · exact ⟨linked.stays _, .inl rfl, fun _ _ => rfl⟩
  · split
    · exact ⟨linked.stays _, .inl rfl, fun _ _ => rfl⟩
    · split
      · exact ⟨linked.stays _, .inl rfl, fun _ _ => rfl⟩
      · split
        · exact ⟨linked.stays _, .inl rfl, fun _ _ => rfl⟩
        · rename_i usable
          have whole : t.faulted = false := Bool.not_eq_true _ ▸ usable
          split
          · have received := linked.receiveInternal whole c.receive
            generalize t.receiveInternal c.receive = r at received ⊢
            obtain ⟨⟨t', result, log⟩, output⟩ := r
            obtain ⟨error, -, kept, same⟩ | ⟨consumed, ok, -⟩ := received
            · dsimp only at error ⊢
              rw [if_pos error]
              exact ⟨⟨kept.admitted, kept.linked⟩, .inl same, fun _ _ => same⟩
            · obtain ⟨error, -⟩ | ⟨pixels, -, -, isLog, -, idle, -, unfaulted, linked'⟩ := consumed
              · exact absurd ok error
              · dsimp only at ok isLog idle unfaulted linked' ⊢
                subst isLog
                have closed := linked'.closes idle unfaulted c
                rw [if_neg (not_not_intro ok)]
                generalize t'.closes c = r at closed ⊢
                obtain ⟨t'', result', more⟩ := r
                obtain ⟨kept, none, fault⟩ := closed
                refine ⟨⟨⟨linked.faulted.trans whole, trivial, kept.admitted⟩, kept.linked⟩, .inr none, ?_⟩
                exact fun pending unfaulted => nomatch (fault pending).symm.trans unfaulted
          · rename_i stage
            have idle : t.pendingStage = .none := by
              cases isStage : t.pendingStage with
              | none => rfl
              | consumerAcquire => exact absurd isStage stage
            obtain ⟨kept, none, -⟩ := linked.closes idle whole c
            have same := none.trans (handOff_idle idle).symm
            exact ⟨kept, .inl same, fun _ _ => same⟩

theorem Linked.validateInitialize (linked : t.Linked v) (c : InitializeCall) : Keeps v (t.validateInitialize c) := by
  unfold Transfer.validateInitialize
  split
  · split
    · exact linked.stays _
    · split
      · exact linked.stays _
      · split
        · exact linked.stays _
        · split
          · exact linked.stays _
          · split
            · exact linked.stays _
            · exact ⟨trivial, linked.faulted, fun whole => { linked.whole whole with }⟩
  · exact linked.stays _

end Transfer

/-! Runs. -/

inductive TransferCall (P : Type) where
  | start (c : InitializeCall)
  | enqueue (c : EnqueueCall P)
  | receive (c : ReceiveCall)
  | copy (e : EnqueueCall P) (c : ReceiveCall)
  | shutdown (c : ShutdownCall)

def Transfer.perform (t : Transfer P) : TransferCall P → Transferred P
  | .start c => t.validateInitialize c
  | .enqueue c => t.enqueue c
  | .receive c => t.receive c
  | .copy e c => t.copy e c
  | .shutdown c => t.shutdown c

def sharedTextureTransfer : Machine (Transfer P) (TransferCall P) (TransferEvent P) where
  perform t call := ((t.perform call).1, (t.perform call).2.2)

theorem Transfer.Linked.perform {t : Transfer P} {v : TransferView P} (linked : t.Linked v) (call : TransferCall P) :
    Keeps v (t.perform call) := by
  cases call with
  | start c => exact linked.validateInitialize c
  | enqueue c => exact (linked.enqueue c).1
  | receive c => exact (linked.receive c).1
  | copy e c => exact (linked.copy e c).1
  | shutdown c => exact (linked.shutdown c).1

theorem sharedTextureTransfer_keeps : (sharedTextureTransfer (P := P)).Keeps transferProtocol Transfer.Linked :=
  fun _ _ call linked => ⟨(linked.perform call).admitted, (linked.perform call).linked⟩

/-- What becomes of the hand-off in a call that fails, a timeout included. An enqueue or a
receive leaves it; a copy may leave its own one pending, which a receive can retry; a
shutdown that waits for it in vain leaves it, and one that fails later has received it. -/
def LeftOver (t t' : Transfer P) (result : Hresult) : TransferCall P → Prop
  | .start _ => t'.handOff = t.handOff
  | .enqueue _ => t'.handOff = t.handOff
  | .receive _ => t'.handOff = t.handOff
  | .copy e _ => t'.handOff = t.handOff ∨
      t.handOff = none ∧ ∃ source, e.source = some source ∧ t'.handOff = some source.pixels
  | .shutdown _ => (t'.handOff = t.handOff ∨ t'.handOff = none) ∧
      (result = .pending → t'.faulted = false → t'.handOff = t.handOff)

theorem Transfer.validateInitialize_handOff (t : Transfer P) (c : InitializeCall) :
    (t.validateInitialize c).1.handOff = t.handOff := by
  unfold Transfer.validateInitialize
  split
  · split
    · rfl
    · split
      · rfl
      · split
        · rfl
        · split
          · rfl
          · split <;> rfl
  · rfl

theorem Transfer.Linked.leftOver {t : Transfer P} {v : TransferView P} (linked : t.Linked v) {call : TransferCall P}
    (failed : (t.perform call).2.1 ≠ .ok) : LeftOver t (t.perform call).1 (t.perform call).2.1 call := by
  cases call with
  | start c => exact t.validateInitialize_handOff c
  | enqueue c => exact (linked.enqueue c).2.1 failed
  | receive c => exact (linked.receive c).2.1 failed
  | copy e c => exact (linked.copy e c).2 failed
  | shutdown c => exact (linked.shutdown c).2

/-- What a call hands over and gives out. An enqueue that succeeds hands over the pixels of
its source, a receive that succeeds gives out the pending ones, a copy does both; nothing
else does, but for a copy whose receive fails. -/
def Hands (t t' : Transfer P) (result : Hresult) (handed : List (TransferEvent P)) : TransferCall P → Prop
  | .start _ => handed = []
  | .enqueue c => if result = .ok then ∃ source, c.source = some source ∧ handed = [.enqueued source.pixels]
      else handed = []
  | .receive _ => if result = .ok then ∃ pixels, t.handOff = some pixels ∧ t'.output = some pixels ∧
        handed = [.received pixels]
      else handed = []
  | .copy e _ => if result = .ok then ∃ source, e.source = some source ∧ t'.output = some source.pixels ∧
        handed = [.enqueued source.pixels, .received source.pixels]
      else handed = [] ∨ ∃ source, e.source = some source ∧ handed = [.enqueued source.pixels]
  | .shutdown _ => handed = []

theorem Transfer.validateInitialize_silent (t : Transfer P) (c : InitializeCall) :
    (t.validateInitialize c).2.2 = [] := by
  unfold Transfer.validateInitialize
  split
  · split
    · rfl
    split
    · rfl
    split
    · rfl
    split
    · rfl
    split <;> rfl
  · rfl

theorem Transfer.Linked.hands {t : Transfer P} {v : TransferView P} (linked : t.Linked v) (call : TransferCall P) :
    Hands t (t.perform call).1 (t.perform call).2.1 (Transfer.handed (t.perform call).2.2) call := by
  cases call with
  | start c => exact congrArg Transfer.handed (t.validateInitialize_silent c)
  | enqueue c => exact t.enqueue_hands c
  | receive c => exact (linked.receive c).2.2
  | copy e c => exact linked.copy_hands e c
  | shutdown c => exact t.shutdown_quiet c

theorem Transfer.perform_faulted {t : Transfer P} (faulted : t.faulted = true) (call : TransferCall P) :
    (t.perform call).1 = t ∧ (t.perform call).2.2 = [] := by
  have enqueued (c : EnqueueCall P) : (t.enqueue c).1 = t ∧ (t.enqueue c).2.1 ≠ .ok ∧ (t.enqueue c).2.2 = [] := by
    unfold Transfer.enqueue
    rw [faulted, Bool.or_true, if_pos (c := true = true) rfl]
    split
    · exact ⟨rfl, show Hresult.accessDenied ≠ .ok by decide, rfl⟩
    split
    · exact ⟨rfl, invalidArg_ne_ok, rfl⟩
    · exact ⟨rfl, show Hresult.fail ≠ .ok by decide, rfl⟩
  cases call with
  | start c =>
    unfold Transfer.perform Transfer.validateInitialize
    dsimp only
    split
    · rw [if_pos (by simp [faulted])]
      exact ⟨rfl, rfl⟩
    · exact ⟨rfl, rfl⟩
  | enqueue c => exact ⟨(enqueued c).1, (enqueued c).2.2⟩
  | receive c =>
    unfold Transfer.perform Transfer.receive
    dsimp only
    rw [faulted, Bool.or_true, if_pos (c := true = true) rfl]
    split
    · exact ⟨rfl, rfl⟩
    split <;> exact ⟨rfl, rfl⟩
  | copy e c =>
    obtain ⟨same, error, silent⟩ := enqueued e
    unfold Transfer.perform Transfer.copy
    dsimp only
    rw [if_neg error]
    exact ⟨same, silent⟩
  | shutdown c =>
    unfold Transfer.perform Transfer.shutdown
    dsimp only
    rw [if_pos (c := t.faulted = true) faulted]
    split
    · exact ⟨rfl, rfl⟩
    split
    · exact ⟨rfl, rfl⟩
    split <;> exact ⟨rfl, rfl⟩

/-- In every run: while the transfer is not faulted, the mutex is free between calls, at
key 1 exactly when a hand-off is pending; the record is lawful, and tells by its results
what each call hands over and gives out; a call that fails leaves the hand-off as
`LeftOver` says; and a faulted transfer acquires no mutex again. -/
theorem transfer_keeps_its_key (calls : List (TransferCall P)) :
    let t := (sharedTextureTransfer.run ({} : Transfer P) calls).1
    transferProtocol.Admits {} (sharedTextureTransfer.run ({} : Transfer P) calls).2 ∧
      (t.faulted = false → (t.pendingStage = .consumerAcquire → t.hasResources = true) ∧
        ∀ s ∈ t.slot, s.mutex.owner = none ∧ s.mutex.key = if t.pendingStage = .consumerAcquire then 1 else 0) ∧
      (∀ call, (t.perform call).2.1 ≠ .ok → LeftOver t (t.perform call).1 (t.perform call).2.1 call) ∧
      (∀ call, Hands t (t.perform call).1 (t.perform call).2.1 (Transfer.handed (t.perform call).2.2) call) ∧
      (t.faulted = true → ∀ call, (t.perform call).1 = t ∧ (t.perform call).2.2 = []) := by
  obtain ⟨admitted, linked⟩ := Machine.run_keeps _ sharedTextureTransfer_keeps calls Transfer.init_linked
  refine ⟨admitted, fun whole => ⟨(linked.whole whole).kept, fun s isSlot => ?_⟩,
    fun _ failed => linked.leftOver failed, linked.hands, Transfer.perform_faulted⟩
  rw [(linked.whole whole).free s isSlot]
  exact ⟨rfl, rfl⟩

def startedTransfer : Transfer Nat :=
  (sharedTextureTransfer.run {} [.start
    { onOwner := true, producer := some ⟨1, false⟩, consumer := some ⟨2, false⟩, executor := true
      consumerLuid := true, invoked := true, producerValid := true, consumerContext := true
      consumerDevice1 := true }]).1

def enqueueSeven : EnqueueCall Nat where
  onOwner := true
  source := some ⟨⟨64, 64, 1, 1, 1, 0, true, 0, .rgba8Unorm⟩, 1, 7⟩
  timeoutMs := 100
  polls := []
  creation := ⟨true, [.ok, .ok, .ok, .ok], (.ok, true), (.ok, true), (.ok, true), (.ok, true), (0, 0)⟩
  invoked := .ran
  acquire := .ok
  device := none
  release := none

def receiveLate : ReceiveCall :=
  ⟨true, 100, .timeout, none, none⟩

/-- A copy whose receive times out has published its pixels: none were pending before. -/
theorem copy_timeout_leaves_pending :
    startedTransfer.handOff = none ∧
      (startedTransfer.perform (.copy enqueueSeven receiveLate)).2.1 = .waitTimeout ∧
      (startedTransfer.perform (.copy enqueueSeven receiveLate)).1.handOff = some 7 := by
  decide +kernel

end EdvrPatch.OpenXr
