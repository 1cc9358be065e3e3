import EdvrPatch.Timing.Completions

/-! Whole runs of the native timing: from the calls and what they returned to the
completions that were queued for each sequence. -/
namespace EdvrPatch.Timing

open NativeTiming

variable {math : TimingMath}

def Began (math : TimingMath) (calls : List TimingCall) (p s : Nat) : Prop :=
  ∃ qpc now, (.waitBegin p qpc now, .sequence s) ∈ (timingAfter math calls).2

def PublishedOk (math : TimingMath) (calls : List TimingCall) (frame : EdvrNativeTimingFrame) :
    Prop :=
  ∃ p now, (.publishCpu p (some frame) now, .code .ok) ∈ (timingAfter math calls).2

def Carries (value : NativeTimingSnapshot) (frame : EdvrNativeTimingFrame) : Prop :=
  value.sequence = frame.sequence ∧ value.invalid = false ∧ value.haveCpu = true ∧
    value.cpu = frame.copied

def completionsFor (t : NativeTiming) (s : Nat) : Nat :=
  t.completions.countP (·.sequence == s)

theorem timingAfter_concat (calls : List TimingCall) (call : TimingCall) :
    timingAfter math (calls ++ [call]) =
      (((timingAfter math calls).1.step math call).1,
        (timingAfter math calls).2 ++ [(call, ((timingAfter math calls).1.step math call).2)]) := by
  simp [timingAfter]

variable {calls : List TimingCall} {s : Nat}

theorem Began.concat {p : Nat} (began : Began math calls p s) (call : TimingCall) :
    Began math (calls ++ [call]) p s := by
  obtain ⟨qpc, now, mem⟩ := began
  refine ⟨qpc, now, ?_⟩
  rw [timingAfter_concat]
  exact List.mem_append_left _ mem

theorem began_concat {call : TimingCall} {p : Nat} :
    Began math (calls ++ [call]) p s ↔ Began math calls p s ∨
      ∃ qpc now, call = .waitBegin p qpc now ∧
        ((timingAfter math calls).1.step math call).2 = .sequence s := by
  constructor
  · rintro ⟨qpc, now, mem⟩
    rw [timingAfter_concat] at mem
    rcases List.mem_append.mp mem with mem | mem
    · exact .inl ⟨qpc, now, mem⟩
    · obtain ⟨isCall, isReply⟩ := Prod.mk.injEq .. ▸ List.mem_singleton.mp mem
      exact .inr ⟨qpc, now, isCall.symm, isReply.symm⟩
  · rintro (began | ⟨qpc, now, rfl, isReply⟩)
    · exact began.concat call
    · refine ⟨qpc, now, ?_⟩
      rw [timingAfter_concat, isReply]
      exact List.mem_append_right _ (List.mem_singleton_self _)

theorem Began.append {before : List TimingCall} {p : Nat} (began : Began math before p s)
    (after : List TimingCall) : Began math (before ++ after) p s := by
  induction after using List.reverseRecOn with
  | nil =>
    rwa [List.append_nil]
  | append_singleton after call ih =>
    rw [← List.append_assoc]
    exact ih.concat call

theorem publishedOk_concat {call : TimingCall} {frame : EdvrNativeTimingFrame} :
    PublishedOk math (calls ++ [call]) frame ↔ PublishedOk math calls frame ∨
      ∃ p now, call = .publishCpu p (some frame) now ∧
        ((timingAfter math calls).1.step math call).2 = .code .ok := by
  constructor
  · rintro ⟨p, now, mem⟩
    rw [timingAfter_concat] at mem
    rcases List.mem_append.mp mem with mem | mem
    · exact .inl ⟨p, now, mem⟩
    · obtain ⟨isCall, isReply⟩ := Prod.mk.injEq .. ▸ List.mem_singleton.mp mem
      exact .inr ⟨p, now, isCall.symm, isReply.symm⟩
  · rintro (⟨p, now, mem⟩ | ⟨p, now, rfl, isReply⟩)
    · refine ⟨p, now, ?_⟩
      rw [timingAfter_concat]
      exact List.mem_append_left _ mem
    · refine ⟨p, now, ?_⟩
      rw [timingAfter_concat, isReply]
      exact List.mem_append_right _ (List.mem_singleton_self _)

theorem pending_ne_zero {t : NativeTiming} (isPending : t.pending = some s) : s ≠ 0 := by
  obtain ⟨c, _, isPending⟩ := Option.bind_eq_some_iff.mp isPending
  unfold Context.pending at isPending
  split at isPending
  · rename_i waiting
    cases isPending
    exact waiting.1
  · cases isPending

theorem eq_of_countP_le_one {α : Type} {P : α → Bool} {l : List α} {a b : α}
    (few : l.countP P ≤ 1) (memA : a ∈ l) (memB : b ∈ l) (isA : P a) (isB : P b) : a = b := by
  rw [List.countP_eq_length_filter] at few
  have memA : a ∈ l.filter P := List.mem_filter.mpr ⟨memA, isA⟩
  have memB : b ∈ l.filter P := List.mem_filter.mpr ⟨memB, isB⟩
  match isFiltered : l.filter P, few with
  | [], _ =>
    rw [isFiltered] at memA
    cases memA
  | [c], _ =>
    rw [isFiltered, List.mem_singleton] at memA memB
    rw [memA, memB]

structure OneEach (math : TimingMath) (calls : List TimingCall) (t : NativeTiming) : Prop where
  sound : t.Sound
  counter : t.nextSequence ≤ calls.countP TimingCall.waits
  low : ∀ p s, Began math calls p s → s ≤ t.nextSequence ∨ 2 ^ 64 ≤ calls.countP TimingCall.waits
  counted : ∀ p s, Began math calls p s → s ≠ 0 →
    completionsFor t s = if t.pending = some s then 0 else 1
  origin : ∀ v ∈ t.completions, ∃ p, Began math calls p v.sequence
  began : ∀ s, t.pending = some s → ∃ p, Began math calls p s
  owner : ∀ p s, t.pending = some s → Began math calls p s → t.current = some p
  fresh : ∀ s, t.pending = some s → ∀ before after p, calls = before ++ after →
    Began math before p s → ∀ call ∈ after, ¬call.ends p
  valid : ∀ v ∈ t.completions, v.invalid = true ∨
    ∃ frame, PublishedOk math calls frame ∧ Carries v frame
  published : ∀ frame, PublishedOk math calls frame → ∃ v ∈ t.completions, Carries v frame

namespace OneEach

theorem init : OneEach math [] {} where
  sound := ⟨by rintro _ _ ⟨⟩, by rintro _ _ ⟨⟩⟩
  counter := Nat.zero_le _
  low := nofun
  counted := nofun
  origin := by rintro _ ⟨⟩
  began := nofun
  owner := nofun
  fresh := nofun
  valid := by rintro _ ⟨⟩
  published := nofun

section Step

variable {calls : List TimingCall} {call : TimingCall} {values : List NativeTimingSnapshot}
  {t' : NativeTiming} {reply : TimingReply}
  (h : OneEach math calls (timingAfter math calls).1)
  (stepped : Stepped (timingAfter math calls).1 call t' reply values)
include h stepped

theorem origin_step (v : NativeTimingSnapshot) (mem : v ∈ t'.completions) :
    ∃ p, Began math calls p v.sequence := by
  rw [stepped.queued] at mem
  rcases List.mem_append.mp mem with old | new
  · exact h.origin v old
  · exact h.began _ (stepped.settles v new).1

variable {s : Nat}

theorem count_new (new : ∀ p, ¬Began math calls p s) : completionsFor t' s = 0 := by
  rw [completionsFor, List.countP_eq_zero]
  intro v mem same
  obtain ⟨p, began⟩ := origin_step h stepped v mem
  rw [beq_iff_eq] at same
  rw [same] at began
  exact new p began

variable (few : (calls ++ [call]).countP TimingCall.waits ≤ 2 ^ 64)
include few

theorem drawn (waits : call.waits = true) (isReply : reply = .sequence s) (nonzero : s ≠ 0) :
    s = t'.nextSequence ∧ ∀ p, ¬Began math calls p s := by
  have counter := stepped.counter
  rw [if_pos waits] at counter
  have room : calls.countP TimingCall.waits < 2 ^ 64 := by
    rw [List.countP_append, List.countP_singleton, if_pos waits] at few
    exact few
  have bound := h.counter
  rcases counter with ⟨next, zero | same⟩ | ⟨_, zero⟩
  · rw [isReply] at zero
    cases zero
    exact absurd rfl nonzero
  · rw [isReply] at same
    cases same
    refine ⟨rfl, fun p began => ?_⟩
    rcases h.low p _ began with small | large
    · rw [next] at small nonzero
      rcases Nat.lt_or_ge ((timingAfter math calls).1.nextSequence + 1) (2 ^ 64) with fits | wraps
      · rw [Nat.mod_eq_of_lt fits] at small
        omega
      · have full : (timingAfter math calls).1.nextSequence + 1 = 2 ^ 64 := by omega
        rw [full, Nat.mod_self] at nonzero
        exact nonzero rfl
    · omega
  · rw [isReply] at zero
    cases zero
    exact absurd rfl nonzero

theorem kept {p : Nat} (began : Began math calls p s) (nonzero : s ≠ 0)
    (isPending : t'.pending = some s) :
    (timingAfter math calls).1.pending = some s ∧ values = [] ∧
      t'.current = (timingAfter math calls).1.current ∧
        ∀ p, (timingAfter math calls).1.current = some p → ¬call.ends p := by
  rcases stepped.kept s isPending with same | ⟨q, qpc, now, isCall, isReply, _⟩
  · exact same
  · have waits : call.waits = true := by rw [isCall]; rfl
    exact absurd began ((drawn h stepped few waits isReply nonzero).2 p)

theorem count_old {p : Nat} (began : Began math calls p s) (nonzero : s ≠ 0) :
    completionsFor t' s = if t'.pending = some s then 0 else 1 := by
  have before := h.counted p s began nonzero
  have after : completionsFor t' s = completionsFor (timingAfter math calls).1 s +
      values.countP (·.sequence == s) := by
    rw [completionsFor, stepped.queued, List.countP_append]
    rfl
  have short : values.countP (·.sequence == s) ≤ 1 := by
    have := stepped.short
    have := List.countP_le_length (p := (·.sequence == s)) (l := values)
    omega
  by_cases isPending : (timingAfter math calls).1.pending = some s
  · rw [if_pos isPending] at before
    rcases stepped.lost s isPending with still | ⟨v, mem, same⟩
    · obtain ⟨_, empty, _⟩ := kept h stepped few began nonzero still
      rw [after, before, empty, if_pos still]
      rfl
    · have gone : t'.pending ≠ some s := by
        intro still
        obtain ⟨_, empty, _⟩ := kept h stepped few began nonzero still
        rw [empty] at mem
        cases mem
      have pos : 0 < values.countP (·.sequence == s) :=
        List.countP_pos_iff.mpr ⟨v, mem, by simpa using same⟩
      rw [if_neg gone]
      omega
  · rw [if_neg isPending] at before
    have gone : t'.pending ≠ some s :=
      fun still => isPending (kept h stepped few began nonzero still).1
    have none' : values.countP (·.sequence == s) = 0 := by
      rw [List.countP_eq_zero]
      intro v mem same
      have was := (stepped.settles v mem).1
      rw [beq_iff_eq] at same
      rw [same] at was
      exact isPending was
    rw [if_neg gone]
    omega

end Step

theorem step {calls : List TimingCall} (h : OneEach math calls (timingAfter math calls).1)
    (call : TimingCall) (few : (calls ++ [call]).countP TimingCall.waits ≤ 2 ^ 64) :
    OneEach math (calls ++ [call]) (timingAfter math (calls ++ [call])).1 := by
  obtain ⟨values, stepped⟩ : ∃ values, Stepped (timingAfter math calls).1 call
      ((timingAfter math calls).1.step math call).1 ((timingAfter math calls).1.step math call).2
      values := step_stepped h.sound call
  rw [timingAfter_concat]
  dsimp only
  generalize isStep : (timingAfter math calls).1.step math call = result at stepped
  obtain ⟨t', reply⟩ := result
  have isReply : ((timingAfter math calls).1.step math call).2 = reply := by rw [isStep]
  have waited {p : Nat} {qpc : Int} {now : Nat} (isCall : call = .waitBegin p qpc now) :
      call.waits = true := by
    rw [isCall]
    rfl
  -- A wait of the longer run is an old one, or the one just begun.
  have begins {p s : Nat} (began : Began math (calls ++ [call]) p s) :
      Began math calls p s ∨ ∃ qpc now, call = .waitBegin p qpc now ∧ reply = .sequence s := by
    rw [← isReply]
    exact began_concat.mp began
  refine ⟨stepped.sound, ?_, ?_, ?_, ?_, ?_, ?_, ?_, ?_, ?_⟩
  · have bound := h.counter
    have counter := stepped.counter
    rw [List.countP_append, List.countP_singleton]
    split at counter
    · rename_i waits
      rw [if_pos waits]
      rcases counter with ⟨next, _⟩ | ⟨next, _⟩
      · rw [next]
        omega
      · omega
    · rename_i waits
      omega
  · intro p s began
    rw [List.countP_append, List.countP_singleton]
    rcases begins began with old | ⟨qpc, now, isCall, is⟩
    · have counter := stepped.counter
      rcases h.low p s old with small | large
      · have bound := h.counter
        split at counter
        · rename_i waits
          rw [if_pos waits]
          rcases counter with ⟨next, _⟩ | ⟨next, _⟩
          · rcases Nat.lt_or_ge ((timingAfter math calls).1.nextSequence + 1) (2 ^ 64) with fits | wraps
            · rw [Nat.mod_eq_of_lt fits] at next
              omega
            · omega
          · omega
        · omega
      · omega
    · by_cases nonzero : s = 0
      · omega
      · exact .inl (Nat.le_of_eq (drawn h stepped few (waited isCall) is nonzero).1)
  · intro p s began nonzero
    rcases begins began with old | ⟨qpc, now, isCall, is⟩
    · exact count_old h stepped few old nonzero
    · rw [if_pos (stepped.began p qpc now s isCall is nonzero)]
      exact count_new h stepped (drawn h stepped few (waited isCall) is nonzero).2
  · intro v mem
    obtain ⟨p, began⟩ := origin_step h stepped v mem
    exact ⟨p, began.concat call⟩
  · intro s isPending
    rcases stepped.kept s isPending with ⟨was, _⟩ | ⟨p, qpc, now, isCall, is, _⟩
    · obtain ⟨p, began⟩ := h.began s was
      exact ⟨p, began.concat call⟩
    · exact ⟨p, began_concat.mpr (.inr ⟨qpc, now, isCall, isReply.trans is⟩)⟩
  · intro p s isPending began
    have nonzero := pending_ne_zero isPending
    rcases begins began with old | ⟨qpc, now, isCall, is⟩
    · obtain ⟨was, _, current, _⟩ := kept h stepped few old nonzero isPending
      rw [current]
      exact h.owner p s was old
    · have new := (drawn h stepped few (waited isCall) is nonzero).2
      rcases stepped.kept s isPending with ⟨was, _⟩ | ⟨q, _, _, isCall', _, current⟩
      · obtain ⟨q, old⟩ := h.began s was
        exact absurd old (new q)
      · rw [isCall] at isCall'
        cases isCall'
        exact current
  · intro s isPending before after p split' began
    have nonzero := pending_ne_zero isPending
    rcases List.eq_nil_or_concat after with rfl | ⟨rest, last, rfl⟩
    · nofun
    rw [List.concat_eq_append, ← List.append_assoc] at split'
    obtain ⟨rfl, isLast⟩ := List.append_inj' split' rfl
    cases isLast
    have old : Began math (before ++ rest) p s := began.append rest
    obtain ⟨was, _, _, open_⟩ := kept h stepped few old nonzero isPending
    intro other mem
    rw [List.concat_eq_append] at mem
    rcases List.mem_append.mp mem with mem | mem
    · exact h.fresh s was before rest p rfl began other mem
    · cases List.mem_singleton.mp mem
      exact open_ p (h.owner p s was old)
  · intro v mem
    rw [stepped.queued] at mem
    rcases List.mem_append.mp mem with mem | mem
    · rcases h.valid v mem with invalid | ⟨frame, published, carries⟩
      · exact .inl invalid
      · exact .inr ⟨frame, publishedOk_concat.mpr (.inl published), carries⟩
    · rcases (stepped.settles v mem).2 with invalid | ⟨p, frame, now, isCall, is, carries⟩
      · exact .inl invalid
      · exact .inr ⟨frame, publishedOk_concat.mpr (.inr ⟨p, now, isCall, isReply.trans is⟩), carries⟩
  · intro frame published
    rw [stepped.queued]
    rcases publishedOk_concat.mp published with old | ⟨p, now, isCall, is⟩
    · obtain ⟨v, mem, carries⟩ := h.published frame old
      exact ⟨v, List.mem_append_left _ mem, carries⟩
    · obtain ⟨v, mem, q, frame', now', isCall', _, carries⟩ :=
        stepped.published p frame now isCall (isReply.symm.trans is)
      rw [isCall] at isCall'
      cases isCall'
      exact ⟨v, List.mem_append_right _ mem, carries⟩

theorem after {calls : List TimingCall} (few : calls.countP TimingCall.waits ≤ 2 ^ 64) :
    OneEach math calls (timingAfter math calls).1 := by
  induction calls using List.reverseRecOn with
  | nil => exact init
  | append_singleton calls call ih =>
    refine step (ih ?_) call few
    rw [List.countP_append] at few
    omega

end OneEach

/-- A sequence that `waitBegin` returned has at most one completion, and one as soon
as its context began another wait or was closed. The completion is not invalid if
and only if `publishCpu` took a frame of that sequence, which it then carries. -/
theorem one_completion_per_wait (math : TimingMath) (calls : List TimingCall)
    (few : calls.countP TimingCall.waits ≤ 2 ^ 64) (p s : Nat) (began : Began math calls p s)
    (nonzero : s ≠ 0) :
    completionsFor (timingAfter math calls).1 s ≤ 1 ∧
    (∀ before after, calls = before ++ after → Began math before p s →
      (∃ call ∈ after, call.ends p) → completionsFor (timingAfter math calls).1 s = 1) ∧
    (∀ v ∈ (timingAfter math calls).1.completions, v.sequence = s → v.invalid = false →
      ∃ frame, PublishedOk math calls frame ∧ frame.sequence = s) ∧
    ∀ frame, PublishedOk math calls frame → frame.sequence = s →
      ∀ v ∈ (timingAfter math calls).1.completions, v.sequence = s → Carries v frame := by
  have h : OneEach math calls (timingAfter math calls).1 := .after few
  have counted := h.counted p s began nonzero
  have few : completionsFor (timingAfter math calls).1 s ≤ 1 := by
    rw [counted]
    split
    · exact Nat.zero_le _
    · exact Nat.le_refl _
  refine ⟨few, ?_, ?_, ?_⟩
  · rintro before after isSplit began ⟨call, mem, ends⟩
    rw [counted, if_neg]
    intro isPending
    exact h.fresh s isPending before after p isSplit began call mem ends
  · intro v mem same sound
    rcases h.valid v mem with invalid | ⟨frame, published, carries⟩
    · rw [sound] at invalid
      cases invalid
    · exact ⟨frame, published, carries.1.symm.trans same⟩
  · intro frame published same v mem isSequence
    obtain ⟨w, isQueued, carries⟩ := h.published frame published
    have only : v = w := by
      apply eq_of_countP_le_one few mem isQueued
      · simpa using isSequence
      · simpa using carries.1.trans same
    rw [only]
    exact carries

def plainMath : TimingMath where
  qpcMs := fun start stop => if 0 < start ∧ start ≤ stop then some 0 else none
  addMs := fun a _ => a
  periodMs := fun _ => 0

def plainFrame : EdvrNativeTimingFrame := { size := 168, version := 3, sequence := 1 }

def publishedWait : List TimingCall :=
  [.acquire true (some { device := 1, generation := 1 }) 7, .waitBegin 0 5 100,
    .waitEnd 0 1 1 0 6 true 101, .publishCpu 0 (some plainFrame) 102, .waitBegin 0 8 103]

theorem one_completion_per_wait_published :
    completionsFor (timingAfter plainMath publishedWait).1 1 = 1 ∧
      ∀ v ∈ (timingAfter plainMath publishedWait).1.completions, v.sequence = 1 →
        Carries v plainFrame := by
  have first : Began plainMath (publishedWait.take 2) 0 1 := ⟨5, 100, .tail _ (.head _)⟩
  have began : Began plainMath publishedWait 0 1 := ⟨5, 100, .tail _ (.head _)⟩
  have published : PublishedOk plainMath publishedWait plainFrame :=
    ⟨0, 102, .tail _ (.tail _ (.tail _ (.head _)))⟩
  obtain ⟨_, one, _, carries⟩ :=
    one_completion_per_wait plainMath publishedWait (by decide) 0 1 began (by decide)
  refine ⟨one (publishedWait.take 2) (publishedWait.drop 2) (List.take_append_drop 2 _).symm first ?_,
    carries plainFrame published rfl⟩
  exact ⟨.waitBegin 0 8 103, .tail _ (.tail _ (.head _)), rfl⟩

def waitsOnly (n : Nat) : List TimingCall :=
  .acquire true (some { device := 1, generation := 1 }) 7 :: List.replicate n (.waitBegin 0 1 0)

theorem waitsOnly_succ (n : Nat) : waitsOnly (n + 1) = waitsOnly n ++ [TimingCall.waitBegin 0 1 0] := by
  simp [waitsOnly, List.replicate_succ']

theorem waitsOnly_state (n : Nat) :
    (timingAfter plainMath (waitsOnly n)).1.nextSequence = n % 2 ^ 64 ∧
      ∃ c, (timingAfter plainMath (waitsOnly n)).1.live 0 = some c ∧ c.Sound ∧
        (n % 2 ^ 64 = 1 → c.pending = some 1) := by
  induction n with
  | zero => exact ⟨rfl, _, rfl, sound_of_over rfl rfl rfl, fun one => by simp at one⟩
  | succ n ih =>
    obtain ⟨next, c, isLive, sound, _⟩ := ih
    obtain ⟨snapshot, c', begun, isActive, sound', isPending⟩ := waitBegin_eq isLive sound 1 0
    obtain ⟨found, active, current⟩ := live_eq_some.mp isLive
    have drawn : (gpuWaitBegin (timingAfter plainMath (waitsOnly n)).1.nextSequence).1 =
        (n + 1) % 2 ^ 64 := by
      rw [next, gpuWaitBegin, Nat.mod_add_mod]
    rw [waitsOnly_succ, timingAfter_concat, NativeTiming.step]
    dsimp only [Prod.map, id]
    rw [begun]
    refine ⟨drawn, c', live_eq_some.mpr ⟨?_, isActive.trans active, current⟩, sound', ?_⟩
    · exact (put_pool _ 0 c' 0).trans (by rw [if_pos rfl, found]; rfl)
    · intro one
      rw [one] at drawn
      have answer : (gpuWaitBegin (timingAfter plainMath (waitsOnly n)).1.nextSequence).2 = 1 := by
        have same : (gpuWaitBegin (timingAfter plainMath (waitsOnly n)).1.nextSequence).2 =
          if (gpuWaitBegin (timingAfter plainMath (waitsOnly n)).1.nextSequence).1 = 0 ∨
            (2 ^ 64 - 1) / 2 < (gpuWaitBegin (timingAfter plainMath (waitsOnly n)).1.nextSequence).1
          then 0 else (gpuWaitBegin (timingAfter plainMath (waitsOnly n)).1.nextSequence).1 := rfl
        rw [same, drawn]
        rfl
      rw [isPending, answer]
      rfl

theorem completionsFor_waitsOnly (n : Nat) :
    completionsFor (timingAfter plainMath (waitsOnly n)).1 1 +
        (if n % 2 ^ 64 = 1 then 1 else 0) ≤
      completionsFor (timingAfter plainMath (waitsOnly (n + 1))).1 1 := by
  obtain ⟨_, c, isLive, sound, pending⟩ := waitsOnly_state n
  obtain ⟨snapshot, c', begun, _⟩ := waitBegin_eq isLive sound 1 0
  rw [waitsOnly_succ, timingAfter_concat, NativeTiming.step]
  dsimp only [Prod.map, id]
  rw [begun]
  unfold completionsFor
  rw [List.countP_append]
  split
  · rename_i one
    rw [pending one]
    exact Nat.le_refl _
  · omega

theorem completionsFor_mono (n k : Nat) :
    completionsFor (timingAfter plainMath (waitsOnly n)).1 1 ≤
      completionsFor (timingAfter plainMath (waitsOnly (n + k))).1 1 := by
  induction k with
  | zero => exact Nat.le_refl _
  | succ k ih =>
    have next := completionsFor_waitsOnly (n + k)
    rw [Nat.add_assoc] at next
    omega

/-- Once the counter came around, the first sequence is completed a second time. -/
theorem one_completion_per_wait_wraps :
    ¬∀ (math : TimingMath) (calls : List TimingCall) (p s : Nat), Began math calls p s → s ≠ 0 →
      completionsFor (timingAfter math calls).1 s ≤ 1 := by
  intro all
  have began : Began plainMath (waitsOnly 1) 0 1 := ⟨1, 0, .tail _ (.head _)⟩
  have long : waitsOnly (1 + (2 ^ 64 + 1)) =
      waitsOnly 1 ++ List.replicate (2 ^ 64 + 1) (TimingCall.waitBegin 0 1 0) := by
    rw [waitsOnly, List.replicate_add]
    rfl
  have few := all plainMath (waitsOnly (1 + (2 ^ 64 + 1))) 0 1
    (long ▸ began.append (List.replicate (2 ^ 64 + 1) (.waitBegin 0 1 0))) (by decide)
  have first := completionsFor_waitsOnly 1
  have between := completionsFor_mono (1 + 1) (2 ^ 64 - 1)
  have again := completionsFor_waitsOnly (2 ^ 64 + 1)
  rw [if_pos (by decide)] at first again
  have start : 1 + 1 + (2 ^ 64 - 1) = 2 ^ 64 + 1 := by decide
  have stop : 2 ^ 64 + 1 + 1 = 1 + (2 ^ 64 + 1) := by decide
  rw [start] at between
  rw [stop] at again
  omega

end EdvrPatch.Timing
