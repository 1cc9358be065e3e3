import EdvrPatch.Timing.Native

/-! Every wait gets one completion. A wait is pending from the `waitBegin` that
returned it to the completion that is queued for it, and at most one is pending at
a time: what a step queues is for the pending one, which it then no longer is. -/
namespace EdvrPatch.Timing

def Context.pending (c : Context) : Option Nat :=
  if c.waitSequence ≠ 0 ∧ ¬c.completionQueued then some c.waitSequence else none

/-- A wait that can still end or be published is pending, and a published one is not. -/
structure Context.Sound (c : Context) : Prop where
  outstanding : c.waitOutstanding = true → c.pending = some c.waitSequence
  valid : c.waitValid = true → c.published = false → c.pending = some c.waitSequence
  published : c.published = true → c.pending = none
  ended : c.waitValid = true → c.waitOutstanding = false

def TimingCall.ends (p : Nat) : TimingCall → Prop
  | .waitBegin q _ _ => q = p
  | .close q _ => q = p
  | _ => False

def TimingCall.waits : TimingCall → Bool
  | .waitBegin .. => true
  | .waitElsewhere => true
  | _ => false

/-- The value is the completion of a frame that was published with success. -/
def Publishes (call : TimingCall) (reply : TimingReply) (value : NativeTimingSnapshot) : Prop :=
  ∃ p frame now, call = .publishCpu p (some frame) now ∧ reply = .code .ok ∧
    value.sequence = frame.sequence ∧ value.invalid = false ∧ value.haveCpu = true ∧
    value.cpu = frame.copied

namespace NativeTiming

variable {math : TimingMath} {t : NativeTiming} {p : Nat} {c : Context}

def pending (t : NativeTiming) : Option Nat :=
  (t.current.bind fun p => t.pool[p]?).bind Context.pending

structure Sound (t : NativeTiming) : Prop where
  active : ∀ p c, t.pool[p]? = some c → (c.active = true ↔ t.current = some p)
  live : ∀ p c, t.live p = some c → c.Sound

structure Stepped (t : NativeTiming) (call : TimingCall) (t' : NativeTiming) (reply : TimingReply)
    (values : List NativeTimingSnapshot) : Prop where
  sound : t'.Sound
  queued : t'.completions = t.completions ++ values
  short : values.length ≤ 1
  settles : ∀ v ∈ values, t.pending = some v.sequence ∧
    (v.invalid = true ∨ Publishes call reply v)
  lost : ∀ s, t.pending = some s → t'.pending = some s ∨ ∃ v ∈ values, v.sequence = s
  kept : ∀ s, t'.pending = some s →
    t.pending = some s ∧ values = [] ∧ t'.current = t.current ∧
        (∀ p, t.current = some p → ¬call.ends p) ∨
      ∃ p qpc now, call = .waitBegin p qpc now ∧ reply = .sequence s ∧ t'.current = some p
  began : ∀ p qpc now s, call = .waitBegin p qpc now → reply = .sequence s → s ≠ 0 →
    t'.pending = some s
  published : ∀ p frame now, call = .publishCpu p (some frame) now → reply = .code .ok →
    ∃ v ∈ values, Publishes call reply v
  counter : if call.waits then
      t'.nextSequence = (t.nextSequence + 1) % 2 ^ 64 ∧
          (reply = .sequence 0 ∨ reply = .sequence t'.nextSequence) ∨
        t'.nextSequence = t.nextSequence ∧ reply = .sequence 0
    else t'.nextSequence = t.nextSequence

theorem live_eq_some : t.live p = some c ↔
    t.pool[p]? = some c ∧ c.active = true ∧ t.current = some p := by
  simp [live, Option.filter_eq_some_iff]

theorem pending_of_live (isLive : t.live p = some c) : t.pending = c.pending := by
  obtain ⟨found, _, current⟩ := live_eq_some.mp isLive
  simp [pending, current, found]

theorem put_pool (t : NativeTiming) (p : Nat) (c : Context) (q : Nat) :
    (t.put p c).pool[q]? = if p = q then (t.pool[p]?).map fun _ => c else t.pool[q]? := by
  rw [put, List.getElem?_set]
  by_cases same : p = q
  · subst same
    by_cases small : p < t.pool.length
    · simp [small]
    · simp [small]
  · simp [same]

variable {c' : Context} {t' : NativeTiming}

theorem pending_put (isLive : t.live p = some c) (current : t'.current = t.current)
    (pool : t'.pool = (t.put p c').pool) : t'.pending = c'.pending := by
  obtain ⟨found, _, isCurrent⟩ := live_eq_some.mp isLive
  rw [pending, current, isCurrent, Option.bind_some, pool, put_pool, if_pos rfl, found]
  rfl

theorem Sound.put (h : t.Sound) (isLive : t.live p = some c) (current : t'.current = t.current)
    (pool : t'.pool = (t.put p c').pool) (active : c'.active = c.active) (sound : c'.Sound) :
    t'.Sound := by
  obtain ⟨found, isActive, isCurrent⟩ := live_eq_some.mp isLive
  have pools (q : Nat) (d : Context) (at? : t'.pool[q]? = some d) :
      p = q ∧ d = c' ∨ p ≠ q ∧ t.pool[q]? = some d := by
    rw [pool, put_pool] at at?
    by_cases same : p = q
    · rw [if_pos same, found] at at?
      exact .inl ⟨same, (Option.some.inj at?).symm⟩
    · rw [if_neg same] at at?
      exact .inr ⟨same, at?⟩
  constructor
  · intro q d at?
    rw [current]
    rcases pools q d at? with ⟨rfl, rfl⟩ | ⟨_, at?⟩
    · rw [active]
      exact ⟨fun _ => isCurrent, fun _ => isActive⟩
    · exact h.active q d at?
  · intro q d isLive
    obtain ⟨at?, _, isCurrent'⟩ := live_eq_some.mp isLive
    rcases pools q d at? with ⟨_, rfl⟩ | ⟨other, _⟩
    · exact sound
    · rw [current, isCurrent] at isCurrent'
      exact absurd (Option.some.inj isCurrent') other

theorem Sound.live_of_pending (h : t.Sound) {s : Nat} (isPending : t.pending = some s) :
    ∃ p c, t.live p = some c ∧ c.pending = some s := by
  obtain ⟨c, found, isPending⟩ := Option.bind_eq_some_iff.mp isPending
  obtain ⟨p, current, found⟩ := Option.bind_eq_some_iff.mp found
  exact ⟨p, c, live_eq_some.mpr ⟨found, (h.active p c found).mpr current, current⟩, isPending⟩

theorem Stepped.refused (h : t.Sound) {call : TimingCall} {reply : TimingReply}
    (dead : ∀ p, call.ends p → t.live p = none)
    (begins : ∀ s, reply = .sequence s → s = 0) (waits : call.waits = true → reply = .sequence 0)
    (publishes : reply = .code .ok → ∀ p frame now, call ≠ .publishCpu p frame now) :
    Stepped t call t reply [] where
  sound := h
  queued := (List.append_nil _).symm
  short := by simp
  settles := by simp
  lost := fun s isPending => .inl isPending
  kept := by
    intro s isPending
    refine .inl ⟨isPending, rfl, rfl, fun p current ends => ?_⟩
    obtain ⟨q, c, isLive, _⟩ := h.live_of_pending isPending
    have same := (live_eq_some.mp isLive).2.2
    rw [current] at same
    cases same
    rw [dead p ends] at isLive
    cases isLive
  began := fun _ _ _ s _ isReply nonzero => absurd (begins s isReply) nonzero
  published := fun p frame now isCall isReply => absurd isCall (publishes isReply p _ now)
  counter := by
    split
    · rename_i drawn
      exact .inr ⟨rfl, waits drawn⟩
    · rfl

/-- A call that changes the live context, and queues a value where its wait was
pending and is no longer. -/
theorem Stepped.changed (h : t.Sound) (isLive : t.live p = some c) {call : TimingCall}
    {reply : TimingReply} {values : List NativeTimingSnapshot} (current : t'.current = t.current)
    (pool : t'.pool = (t.put p c').pool) (next : t'.nextSequence = t.nextSequence)
    (queued : t'.completions = t.completions ++ values) (active : c'.active = c.active)
    (sound : c'.Sound) (other : call.waits = false ∧ ∀ p, ¬call.ends p)
    (ways : values = [] ∧ c'.pending = c.pending ∧ (reply = .code .ok → ∀ p frame now, call ≠ .publishCpu p frame now) ∨ ∃ v, values = [v] ∧ c.pending = some v.sequence ∧ c'.pending = none ∧ (v.invalid = true ∧ (reply = .code .ok → ∀ p frame now, call ≠ .publishCpu p frame now) ∨ Publishes call reply v)) :
    Stepped t call t' reply values := by
  have before := pending_of_live isLive
  have after := pending_put isLive current pool
  have noWait (p : Nat) (qpc : Int) (now : Nat) : call ≠ .waitBegin p qpc now := by
    intro isCall
    rw [isCall] at other
    cases other.1
  refine ⟨h.put isLive current pool active sound, queued, ?_, ?_, ?_, ?_, ?_, ?_, ?_⟩
  · rcases ways with ⟨rfl, _⟩ | ⟨v, rfl, _⟩
    · simp
    · simp
  · rcases ways with ⟨rfl, _⟩ | ⟨v, rfl, was, _, good⟩
    · simp
    · intro w mem
      rw [List.mem_singleton] at mem
      subst mem
      rw [before]
      exact ⟨was, good.imp And.left id⟩
  · intro s isPending
    rw [before] at isPending
    rw [after]
    rcases ways with ⟨_, same, _⟩ | ⟨v, rfl, was, _⟩
    · exact .inl (same.trans isPending)
    · rw [was] at isPending
      exact .inr ⟨v, List.mem_singleton_self v, Option.some.inj isPending⟩
  · intro s isPending
    rw [after] at isPending
    rcases ways with ⟨empty, same, _⟩ | ⟨v, _, _, gone, _⟩
    · rw [same] at isPending
      exact .inl ⟨before.trans isPending, empty, current, fun p _ => other.2 p⟩
    · rw [gone] at isPending
      cases isPending
  · intro p qpc now s isCall
    exact absurd isCall (noWait p qpc now)
  · intro p frame now isCall isReply
    rcases ways with ⟨_, _, not⟩ | ⟨v, rfl, _, _, ⟨_, not⟩ | good⟩
    · exact absurd isCall (not isReply p _ now)
    · exact absurd isCall (not isReply p _ now)
    · exact ⟨v, List.mem_singleton_self v, good⟩
  · rw [other.1]
    exact next

theorem completion_sequence (s : NativeTimingSnapshot) (c : Context) (sequence : Nat)
    (invalid : Bool) (now : Nat) : (completion s c sequence invalid now).sequence = sequence := by
  unfold completion
  split
  · rfl
  · rfl

theorem queueCompletion_eq (t : NativeTiming) (c : Context) (invalid : Bool) (now : Nat) :
    t.queueCompletion c c.waitSequence invalid now =
      { t with completions := t.completions ++
          (c.pending.map fun s => completion t.snapshot c s invalid now).toList } := by
  unfold queueCompletion Context.pending
  by_cases idle : c.waitSequence = 0 ∨ c.completionQueued = true
  · have not : ¬(c.waitSequence ≠ 0 ∧ ¬c.completionQueued = true) := by tauto
    rw [if_pos idle, if_neg not]
    simp
  · have waiting : c.waitSequence ≠ 0 ∧ ¬c.completionQueued = true := by tauto
    rw [if_neg idle, if_pos waiting]
    rfl

theorem pending_queued (c : Context) : (c.queued c.waitSequence).pending = none := by
  unfold Context.pending Context.queued
  rw [if_neg]
  rintro ⟨nonzero, open_⟩
  apply open_
  simp [nonzero]

theorem sound_of_over {c : Context} (outstanding : c.waitOutstanding = false)
    (past : c.waitValid = false) (unpublished : c.published = false) : c.Sound := by
  refine ⟨?_, ?_, ?_, fun _ => outstanding⟩
  · rw [outstanding]
    nofun
  · rw [past]
    nofun
  · rw [unpublished]
    nofun

/-- The two contexts differ in nothing that a wait depends on. -/
structure SameWait (c c' : Context) : Prop where
  active : c'.active = c.active
  waitSequence : c'.waitSequence = c.waitSequence
  completionQueued : c'.completionQueued = c.completionQueued
  waitOutstanding : c'.waitOutstanding = c.waitOutstanding
  waitValid : c'.waitValid = c.waitValid
  published : c'.published = c.published

theorem SameWait.pending {c : Context} (same : SameWait c c') : c'.pending = c.pending := by
  rw [Context.pending, same.waitSequence, same.completionQueued]
  rfl

theorem SameWait.sound {c : Context} (same : SameWait c c') (sound : c.Sound) : c'.Sound := by
  constructor
  · rw [same.waitOutstanding, same.pending, same.waitSequence]
    exact sound.outstanding
  · rw [same.waitValid, same.published, same.pending, same.waitSequence]
    exact sound.valid
  · rw [same.published, same.pending]
    exact sound.published
  · rw [same.waitValid, same.waitOutstanding]
    exact sound.ended

theorem applicationMark_same (c : Context) (starts accepted : Nat) (texture : Bool) (thread : Nat)
    (qpc : Int) : SameWait c (applicationMark math c starts accepted texture thread qpc).1 := by
  unfold applicationMark
  repeat' split
  all_goals exact ⟨rfl, rfl, rfl, rfl, rfl, rfl⟩

theorem eyeMark_same (c : Context) (eye starts : Nat) (answer : Bool) :
    SameWait c (eyeMark c eye starts answer).1 := by
  unfold eyeMark
  dsimp only
  repeat' split
  all_goals exact ⟨rfl, rfl, rfl, rfl, rfl, rfl⟩

theorem queueUnpublished_eq (t : NativeTiming) (sound : c.Sound) (now : Nat) :
    (if c.published then t else t.queueCompletion c c.waitSequence true now) =
      { t with completions := t.completions ++
          (c.pending.map fun s => completion t.snapshot c s true now).toList } := by
  split
  · rename_i published
    rw [sound.published published]
    simp
  · exact queueCompletion_eq t c true now

theorem queueUnfinished_eq (t : NativeTiming) (sound : c.Sound) (now : Nat) :
    ∃ snapshot, (if c.waitSequence ≠ 0 ∧ ¬c.published then
        { t.queueCompletion c c.waitSequence true now with
          snapshot := clearCpu (t.queueCompletion c c.waitSequence true now).snapshot }
      else t) =
      { t with
        snapshot := snapshot
        completions := t.completions ++
          (c.pending.map fun s => completion t.snapshot c s true now).toList } := by
  split
  · rw [queueCompletion_eq]
    exact ⟨_, rfl⟩
  · rename_i finished
    have past : c.pending = none := by
      by_cases published : c.published = true
      · exact sound.published published
      · have zero : c.waitSequence = 0 := by
          by_contra nonzero
          exact finished ⟨nonzero, published⟩
        rw [Context.pending, if_neg]
        exact fun waiting => waiting.1 zero
    rw [past]
    exact ⟨t.snapshot, by simp⟩

theorem queuedUnpublished_pending (sound : c.Sound) :
    (if c.published then c else c.queued c.waitSequence).pending = none := by
  split
  · rename_i published
    exact sound.published published
  · exact pending_queued c

theorem waitBegin_eq {t : NativeTiming} {p : Nat} {c : Context} (isLive : t.live p = some c)
    (sound : c.Sound) (qpc : Int) (now : Nat) :
    ∃ snapshot c', t.waitBegin p qpc now =
        ({ t.put p c' with
            snapshot := snapshot
            completions := t.completions ++
              (c.pending.map fun s => completion t.snapshot c s true now).toList
            nextSequence := (gpuWaitBegin t.nextSequence).1 },
          (gpuWaitBegin t.nextSequence).2) ∧
      c'.active = c.active ∧ c'.Sound ∧
      c'.pending = if (gpuWaitBegin t.nextSequence).2 ≠ 0 then
        some (gpuWaitBegin t.nextSequence).2 else none := by
  obtain ⟨snapshot, isQueued⟩ := queueUnfinished_eq t sound now
  unfold waitBegin
  rw [isLive]
  dsimp only
  rw [isQueued]
  refine ⟨_, _, rfl, rfl, ?_⟩
  generalize (gpuWaitBegin t.nextSequence).2 = sequence
  refine ⟨⟨?_, nofun, nofun, nofun⟩, ?_⟩
  · intro outstanding
    have nonzero : sequence ≠ 0 := by simpa using outstanding
    simp [Context.pending, nonzero]
  · simp [Context.pending]

section Calls

variable (h : t.Sound)
include h

theorem waitEnd_stepped (p sequence valid : Nat) (periodNs qpc : Int) (armed : Bool) (now : Nat) :
    ∃ values, Stepped t (.waitEnd p sequence valid periodNs qpc armed now)
      (t.step math (.waitEnd p sequence valid periodNs qpc armed now)).1
      (t.step math (.waitEnd p sequence valid periodNs qpc armed now)).2 values := by
  have refused : Stepped t (.waitEnd p sequence valid periodNs qpc armed now) t
      (.code .invalidArg) [] := .refused h nofun nofun nofun nofun
  unfold step waitEnd
  dsimp only
  cases isLive : t.live p with
  | none => exact ⟨_, refused⟩
  | some c =>
    dsimp only
    split
    · exact ⟨_, refused⟩
    rename_i waiting
    simp only [not_or, not_not] at waiting
    obtain ⟨outstanding, rfl⟩ := waiting
    have isPending := (h.live p c isLive).outstanding outstanding
    split
    · refine ⟨_, .changed h isLive rfl rfl rfl (List.append_nil _).symm rfl ?_ ⟨rfl, nofun⟩
        (.inl ⟨rfl, rfl, nofun⟩)⟩
      exact ⟨nofun, fun _ _ => isPending, nofun, fun _ => rfl⟩
    · rw [queueCompletion_eq, isPending]
      refine ⟨_, .changed h isLive rfl rfl rfl rfl rfl (sound_of_over rfl rfl rfl) ⟨rfl, nofun⟩
        (.inr ⟨_, rfl, ?_, pending_queued c, .inl ⟨rfl, nofun⟩⟩)⟩
      rw [isPending, completion_sequence]

theorem publishCpu_stepped (p : Nat) (frame : Option EdvrNativeTimingFrame) (now : Nat) :
    ∃ values, Stepped t (.publishCpu p frame now) (t.step math (.publishCpu p frame now)).1
      (t.step math (.publishCpu p frame now)).2 values := by
  have refused : Stepped t (.publishCpu p frame now) t (.code .invalidArg) [] :=
    .refused h nofun nofun nofun nofun
  unfold step publishCpu
  dsimp only
  split
  · rename_i c frame isLive
    split
    · exact ⟨_, refused⟩
    rename_i open_
    simp only [not_or, not_not, Bool.not_eq_true, Bool.not_eq_false] at open_
    obtain ⟨_, _, valid, unpublished, same⟩ := open_
    have isPending := (h.live p c isLive).valid valid unpublished
    have ended := (h.live p c isLive).ended valid
    split
    · rw [same, queueCompletion_eq, isPending]
      refine ⟨_, .changed h isLive rfl rfl rfl rfl rfl ?_ ⟨rfl, nofun⟩
        (.inr ⟨_, rfl, ?_, pending_queued c, .inl ⟨rfl, nofun⟩⟩)⟩
      · exact sound_of_over ended rfl unpublished
      · rw [isPending, completion_sequence]
    · rw [same, queueCompletion_eq, isPending]
      refine ⟨_, .changed h isLive rfl rfl rfl rfl rfl ?_ ⟨rfl, nofun⟩
        (.inr ⟨_, rfl, ?_, pending_queued c, .inr ?_⟩)⟩
      · refine ⟨?_, nofun, fun _ => pending_queued c, fun _ => ended⟩
        intro outstanding
        rw [show c.waitOutstanding = true from outstanding] at ended
        cases ended
      · rw [isPending, completion_sequence]
      · exact ⟨p, frame, now, rfl, rfl, same.symm, rfl, rfl, rfl⟩
  · exact ⟨_, refused⟩

theorem gpuEye_stepped (p sequence eye starts accepted : Nat) (texture : Option Bool)
    (thread : Nat) (qpc : Int) (answer : Bool) :
    ∃ values, Stepped t (.gpuEye p sequence eye starts accepted texture thread qpc answer)
      (t.step math (.gpuEye p sequence eye starts accepted texture thread qpc answer)).1
      (t.step math (.gpuEye p sequence eye starts accepted texture thread qpc answer)).2 values := by
  have refused (taken : Bool) :
      Stepped t (.gpuEye p sequence eye starts accepted texture thread qpc answer) t
        (.taken taken) [] := .refused h nofun nofun nofun nofun
  have marked {c c' : Context} (isLive : t.live p = some c) (same : SameWait c c') (taken : Bool) :
      Stepped t (.gpuEye p sequence eye starts accepted texture thread qpc answer) (t.put p c')
        (.taken taken) [] :=
    .changed h isLive rfl rfl rfl (List.append_nil _).symm same.active
      (same.sound (h.live p c isLive)) ⟨rfl, nofun⟩ (.inl ⟨rfl, same.pending, nofun⟩)
  unfold step gpuEye
  dsimp only
  cases isLive : t.live p with
  | none => exact ⟨_, refused _⟩
  | some c =>
    dsimp only
    split
    · exact ⟨_, refused _⟩
    split
    · exact ⟨_, marked isLive (applicationMark_same c starts accepted texture.isSome thread qpc) _⟩
    split
    · split
      · exact ⟨_, refused _⟩
      split
      · exact ⟨_, refused _⟩
      · exact ⟨_, refused _⟩
    split
    · exact ⟨_, refused _⟩
    · exact ⟨_, marked isLive (eyeMark_same c eye starts answer) _⟩

theorem invalidate_stepped (p now : Nat) :
    ∃ values, Stepped t (.invalidate p now) (t.step math (.invalidate p now)).1
      (t.step math (.invalidate p now)).2 values := by
  unfold step invalidate
  dsimp only
  cases isLive : t.live p with
  | none => exact ⟨_, .refused h nofun nofun nofun nofun⟩
  | some c =>
    have sound := h.live p c isLive
    dsimp only
    rw [queueUnpublished_eq t sound]
    generalize isQueued : (if c.published then c else c.queued c.waitSequence) = c'
    have past : c'.pending = none := by
      rw [← isQueued]
      exact queuedUnpublished_pending sound
    have active : c'.active = c.active := by
      rw [← isQueued]
      split
      · rfl
      · rfl
    refine ⟨_, .changed h isLive rfl rfl rfl rfl active (sound_of_over rfl rfl rfl) ⟨rfl, nofun⟩ ?_⟩
    cases isPending : c.pending with
    | none => exact .inl ⟨rfl, past, nofun⟩
    | some s =>
      refine .inr ⟨_, rfl, ?_, past, .inl ⟨rfl, nofun⟩⟩
      rw [completion_sequence]

theorem acquire_stepped (table : Bool) (request : Option EdvrNativeTimingRequest) (thread : Nat) :
    ∃ values, Stepped t (.acquire table request thread)
      (t.step math (.acquire table request thread)).1
      (t.step math (.acquire table request thread)).2 values := by
  have refused (result : HResult) :
      Stepped t (.acquire table request thread) t (.code result) [] :=
    .refused h nofun nofun nofun nofun
  unfold step acquire
  dsimp only
  split
  · exact ⟨_, refused _⟩
  split
  · exact ⟨_, refused _⟩
  split
  · exact ⟨_, refused _⟩
  rename_i request _ free
  simp only [not_or, Bool.not_eq_true, Option.isSome_eq_false_iff, Option.isNone_iff_eq_none] at free
  have idle : t.pending = none := by
    rw [pending, free.1]
    rfl
  have nothing : ∀ s, t.pending ≠ some s := by
    rw [idle]
    nofun
  refine ⟨[], ?_, (List.append_nil _).symm, by simp, by simp, ?_, ?_, nofun, nofun, rfl⟩
  · constructor
    · intro q d found
      dsimp only [Prod.map, id] at found ⊢
      rw [List.getElem?_append] at found
      split at found
      · rename_i small
        have inactive := (h.active q d found)
        rw [free.1] at inactive
        constructor
        · intro active
          cases inactive.mp active
        · intro last
          cases last
          exact absurd small (Nat.lt_irrefl _)
      · rename_i large
        have last : q - t.pool.length = 0 := by
          by_contra nonzero
          rw [List.getElem?_eq_none (by simp; omega)] at found
          cases found
        rw [last] at found
        cases found
        refine ⟨fun _ => ?_, fun _ => rfl⟩
        congr 1
        omega
    · intro q d isLive
      obtain ⟨found, _, current⟩ := live_eq_some.mp isLive
      cases current
      dsimp only [Prod.map, id] at found
      rw [List.getElem?_append_right (Nat.le_refl _), Nat.sub_self] at found
      cases found
      exact sound_of_over rfl rfl rfl
  · intro s isPending
    exact absurd isPending (nothing s)
  · intro s isPending
    rw [pending] at isPending
    dsimp only [Prod.map, id] at isPending
    rw [Option.bind_some, List.getElem?_append_right (Nat.le_refl _), Nat.sub_self] at isPending
    cases isPending

theorem close_stepped (p now : Nat) :
    ∃ values, Stepped t (.close p now) (t.step math (.close p now)).1
      (t.step math (.close p now)).2 values := by
  unfold step close
  dsimp only
  cases found : t.pool[p]? with
  | none =>
    refine ⟨_, .refused h ?_ nofun nofun nofun⟩
    intro q ends
    cases ends
    rw [live, found]
    rfl
  | some c =>
    dsimp only
    split
    · rename_i inactive
      refine ⟨_, .refused h ?_ nofun nofun nofun⟩
      intro q ends
      cases ends
      rw [live, found]
      simp [inactive]
    rename_i active
    rw [not_not] at active
    have current := (h.active p c found).mp active
    have isLive := live_eq_some.mpr ⟨found, active, current⟩
    have sound := h.live p c isLive
    rw [queueUnpublished_eq t sound, if_pos current]
    generalize (if c.published then c else c.queued c.waitSequence) = c'
    have gone : ∀ s, (none : Option Nat) ≠ some s := nofun
    refine ⟨_, ?_, rfl, ?_, ?_, ?_, fun s isPending => absurd isPending (gone s), nofun, nofun, rfl⟩
    · constructor
      · intro q d at?
        refine ⟨fun isActive => ?_, fun isCurrent => absurd isCurrent (gone q)⟩
        have at? := (put_pool t p _ q).symm.trans at?
        by_cases same : p = q
        · rw [if_pos same, found] at at?
          cases at?
          cases isActive
        · rw [if_neg same] at at?
          have isCurrent := (h.active q d at?).mp isActive
          rw [current] at isCurrent
          exact absurd (Option.some.inj isCurrent) same
      · intro q d isLive
        exact absurd (live_eq_some.mp isLive).2.2 (gone q)
    · cases c.pending with
      | none => simp
      | some s => simp
    · intro v mem
      obtain ⟨s, isPending, rfl⟩ := Option.map_eq_some_iff.mp (Option.mem_toList.mp mem)
      rw [pending_of_live isLive, completion_sequence]
      exact ⟨isPending, .inl rfl⟩
    · intro s isPending
      rw [pending_of_live isLive] at isPending
      refine .inr ⟨_, Option.mem_toList.mpr (Option.map_eq_some_iff.mpr ⟨s, isPending, rfl⟩), ?_⟩
      rw [completion_sequence]

theorem waitBegin_stepped (p : Nat) (qpc : Int) (now : Nat) :
    ∃ values, Stepped t (.waitBegin p qpc now) (t.step math (.waitBegin p qpc now)).1
      (t.step math (.waitBegin p qpc now)).2 values := by
  unfold step
  dsimp only
  cases isLive : t.live p with
  | none =>
    have dead : t.waitBegin p qpc now = (t, 0) := by
      unfold waitBegin
      rw [isLive]
    rw [dead]
    refine ⟨_, .refused h ?_ ?_ (fun _ => rfl) nofun⟩
    · intro q ends
      cases ends
      exact isLive
    · intro s isReply
      cases isReply
      rfl
  | some c =>
    obtain ⟨_, _, current⟩ := live_eq_some.mp isLive
    obtain ⟨snapshot, c', begun, isActive, sound, isPending⟩ :=
      waitBegin_eq isLive (h.live p c isLive) qpc now
    rw [begun]
    have drawn : (gpuWaitBegin t.nextSequence).2 = 0 ∨
        (gpuWaitBegin t.nextSequence).2 = (gpuWaitBegin t.nextSequence).1 := by
      unfold gpuWaitBegin
      dsimp only
      split
      · exact .inl rfl
      · exact .inr rfl
    refine ⟨_, h.put isLive rfl rfl isActive sound, rfl, ?_, ?_, ?_, ?_, ?_, nofun, ?_⟩
    · cases c.pending with
      | none => simp
      | some s => simp
    · intro v mem
      obtain ⟨s, was, rfl⟩ := Option.map_eq_some_iff.mp (Option.mem_toList.mp mem)
      rw [pending_of_live isLive, completion_sequence]
      exact ⟨was, .inl rfl⟩
    · intro s was
      rw [pending_of_live isLive] at was
      refine .inr ⟨_, Option.mem_toList.mpr (Option.map_eq_some_iff.mpr ⟨s, was, rfl⟩), ?_⟩
      rw [completion_sequence]
    · intro s is
      have same : c'.pending = some s := by
        rw [← is]
        exact Eq.symm (pending_put isLive rfl rfl)
      rw [isPending] at same
      split at same
      · cases same
        exact .inr ⟨p, qpc, now, rfl, rfl, current⟩
      · cases same
    · intro p' qpc' now' s isCall isReply nonzero
      cases isReply
      rw [if_pos nonzero] at isPending
      rw [← isPending]
      exact pending_put isLive rfl rfl
    · refine .inl ⟨rfl, ?_⟩
      rcases drawn with zero | same
      · rw [zero]
        exact .inl rfl
      · rw [same]
        exact .inr rfl

theorem waitElsewhere_stepped :
    ∃ values, Stepped t .waitElsewhere (t.step math .waitElsewhere).1
      (t.step math .waitElsewhere).2 values := by
  refine ⟨[], ⟨h.active, h.live⟩, (List.append_nil _).symm, by simp, by simp,
    fun s isPending => .inl isPending, fun s isPending => .inl ⟨isPending, rfl, rfl, nofun⟩, nofun,
    nofun, .inl ⟨rfl, ?_⟩⟩
  unfold step gpuWaitBegin
  dsimp only
  split
  · exact .inl rfl
  · exact .inr rfl

theorem step_stepped (call : TimingCall) :
    ∃ values, Stepped t call (t.step math call).1 (t.step math call).2 values := by
  cases call with
  | acquire table request thread => exact acquire_stepped h table request thread
  | waitBegin p qpc now => exact waitBegin_stepped h p qpc now
  | waitEnd p sequence valid periodNs qpc armed now =>
    exact waitEnd_stepped h p sequence valid periodNs qpc armed now
  | gpuEye p sequence eye starts accepted texture thread qpc answer =>
    exact gpuEye_stepped h p sequence eye starts accepted texture thread qpc answer
  | publishCpu p frame now => exact publishCpu_stepped h p frame now
  | invalidate p now => exact invalidate_stepped h p now
  | close p now => exact close_stepped h p now
  | waitElsewhere => exact waitElsewhere_stepped h

end Calls

end NativeTiming

end EdvrPatch.Timing
