import EdvrPatch.NativeFrame.Frames

/-! One decision for each frame. What a run says is read off its events: when a frame is
begun, which latches succeed and what they answer, and which of them takes a hold. -/
namespace EdvrPatch.NativeFrame

namespace FrameEvent

def turns (c : Nat) : FrameEvent → Bool
  | .begun c' _ | .invalidated c' | .closed c' => decide (c' = c)
  | _ => false

def latches (c : Nat) : FrameEvent → Bool
  | .latched c' _ _ _ => decide (c' = c)
  | _ => false

def took : FrameEvent → Bool
  | .latched _ _ _ took => took
  | _ => false

end FrameEvent

/-- What a call that succeeds puts into the log: a begin and a latch the event of their
context and sequence, an invalidate and a close their end. -/
def FrameCall.Logs : FrameCall → List FrameEvent → Prop
  | .acquire .., events => ∃ c, events = [.acquired c]
  | .beginFrame context input .., events => ∃ i, input = some i ∧ events = [.begun context i.sequence]
  | .latchSubmit context sequence _, events =>
    ∃ decision took, events = [.latched context sequence decision took]
  | .invalidate context, events => events = [.invalidated context]
  | .close context, events => events = [.closed context]
  | _, events => events = []

/-- The last begin of the context is of this sequence, and neither an invalidate nor a
close has come since. -/
def Latest (c : Nat) (sequence : UInt64) (log : List FrameEvent) : Prop :=
  ∃ before after, log = before ++ FrameEvent.begun c sequence :: after ∧ ∀ e ∈ after, e.turns c = false

/-- What is asked of a begin and of a latch, after what came before. -/
def Fits (before : List FrameEvent) : FrameEvent → Prop
  | .begun c sequence => ∀ s, .begun c s ∈ before → s < sequence
  | .latched c sequence decision took => Latest c sequence before ∧
      ∀ d t, .latched c sequence d t ∈ before → d = decision ∧ took = false
  | _ => True

structure Followed (c : Nat) (state : State) (log : List FrameEvent) : Prop where
  floor : ∀ s, .begun c s ∈ log → s ≤ state.sequenceFloor
  past : ∀ s d t, .latched c s d t ∈ log → s ≤ state.sequenceFloor
  latest : state.began = true → Latest c state.sequenceFloor log
  decided : state.began = true → state.latched = true →
    ∀ d t, .latched c state.sequenceFloor d t ∈ log → d = state.cachedDecision
  fresh : state.began = true → state.latched = false →
    ∀ d t, .latched c state.sequenceFloor d t ∉ log

def World.stateOf (w : World) (c : Nat) : State := (w.pool[c]?).getD {}

structure Tracks (w : World) (log : List FrameEvent) : Prop where
  fits : ∀ before e after, log = before ++ e :: after → Fits before e
  followed : ∀ c, Followed c (w.stateOf c) log

section

variable {c : Nat} {sequence : UInt64} {state state' : State} {log : List FrameEvent} {e : FrameEvent}

theorem Latest.snoc (latest : Latest c sequence log) (stays : e.turns c = false) :
    Latest c sequence (log ++ [e]) := by
  obtain ⟨before, after, rfl, none⟩ := latest
  refine ⟨before, after ++ [e], by simp, fun x mem => ?_⟩
  rcases List.mem_append.mp mem with old | new
  · exact none x old
  · rw [List.mem_singleton.mp new]
    exact stays

theorem latched_before (silent : e.latches c = false) {s : UInt64} {d : NativeFrameDecision}
    {t : Bool} (mem : .latched c s d t ∈ log ++ [e]) : .latched c s d t ∈ log := by
  refine (List.mem_append.mp mem).resolve_right fun new => ?_
  rw [← List.mem_singleton.mp new] at silent
  simp [FrameEvent.latches] at silent

theorem Followed.quiet (h : Followed c state log) (stays : e.turns c = false)
    (silent : e.latches c = false) : Followed c state (log ++ [e]) := by
  have begun : ∀ s, .begun c s ∈ log ++ [e] → .begun c s ∈ log := by
    refine fun s mem => (List.mem_append.mp mem).resolve_right fun new => ?_
    rw [← List.mem_singleton.mp new] at stays
    simp [FrameEvent.turns] at stays
  exact ⟨fun s mem => h.floor s (begun s mem), fun s d t mem => h.past s d t (latched_before silent mem),
    fun began => (h.latest began).snoc stays,
    fun began isLatched d t mem => h.decided began isLatched d t (latched_before silent mem),
    fun began isFresh d t mem => h.fresh began isFresh d t (latched_before silent mem)⟩

theorem Followed.begun (h : Followed c state log) (past : state.sequenceFloor < sequence)
    (transitionFlash : Bool) :
    Fits log (.begun c sequence) ∧
    Followed c (World.beginState state sequence transitionFlash) (log ++ [FrameEvent.begun c sequence]) := by
  have latched : ∀ s d t, .latched c s d t ∈ log ++ [FrameEvent.begun c sequence] → s < sequence := by
    intro s d t mem
    exact UInt64.lt_of_le_of_lt (h.past s d t (by simpa using mem)) past
  refine ⟨fun s mem => UInt64.lt_of_le_of_lt (h.floor s mem) past, ?_, ?_, ?_, nofun, ?_⟩
  · intro s mem
    rcases List.mem_append.mp mem with old | new
    · exact UInt64.le_of_lt (UInt64.lt_of_le_of_lt (h.floor s old) past)
    · cases List.mem_singleton.mp new
      exact UInt64.le_refl _
  · exact fun s d t mem => UInt64.le_of_lt (latched s d t mem)
  · exact fun _ => ⟨log, [], rfl, nofun⟩
  · exact fun _ _ d t mem => UInt64.lt_irrefl _ (latched _ d t mem)

/-- A latch answers what the state then holds, and takes a hold only where none of its
frame came before. -/
theorem Followed.latched (h : Followed c state log) (began : state.began = true) {took : Bool}
    (sameFloor : state'.sequenceFloor = state.sequenceFloor) (isLatched : state'.latched = true)
    (kept : state.latched = true → state'.cachedDecision = state.cachedDecision ∧ took = false) :
    Fits log (.latched c state.sequenceFloor state'.cachedDecision took) ∧
    Followed c state' (log ++ [FrameEvent.latched c state.sequenceFloor state'.cachedDecision took]) := by
  have earlier : ∀ d t, .latched c state.sequenceFloor d t ∈ log → d = state'.cachedDecision ∧ took = false := by
    intro d t mem
    cases was : state.latched with
    | true =>
      obtain ⟨same, none⟩ := kept was
      exact ⟨(h.decided began was d t mem).trans same.symm, none⟩
    | false => exact absurd mem (h.fresh began was d t)
  refine ⟨⟨h.latest began, earlier⟩, ?_, ?_, ?_, ?_, ?_⟩
  · intro s mem
    rw [sameFloor]
    exact h.floor s (by simpa using mem)
  · intro s d t mem
    rw [sameFloor]
    rcases List.mem_append.mp mem with old | new
    · exact h.past s d t old
    · cases List.mem_singleton.mp new
      exact UInt64.le_refl _
  · intro _
    rw [sameFloor]
    exact (h.latest began).snoc rfl
  · intro _ _ d t mem
    rw [sameFloor] at mem
    rcases List.mem_append.mp mem with old | new
    · exact (earlier d t old).1
    · cases List.mem_singleton.mp new
      rfl
  · intro _ isFresh
    rw [isLatched] at isFresh
    cases isFresh

theorem Followed.ended (h : Followed c state log) (sameFloor : state'.sequenceFloor = state.sequenceFloor)
    (isOver : state'.began = false) (silent : ∀ s, e ≠ .begun c s) (unlatched : e.latches c = false) :
    Followed c state' (log ++ [e]) := by
  refine ⟨fun s mem => ?_, fun s d t mem => ?_, ?_, ?_, ?_⟩
  · rw [sameFloor]
    refine h.floor s ((List.mem_append.mp mem).resolve_right fun new => ?_)
    exact silent s (List.mem_singleton.mp new).symm
  · rw [sameFloor]
    exact h.past s d t (latched_before unlatched mem)
  all_goals
    intro began
    rw [isOver] at began
    cases began

theorem fits_snoc (fits : ∀ before e after, log = before ++ e :: after → Fits before e) (new : Fits log e) :
    ∀ before e' after, log ++ [e] = before ++ e' :: after → Fits before e' := by
  intro before e' after split
  rcases List.eq_nil_or_concat after with rfl | ⟨shorter, last, rfl⟩
  · obtain ⟨rfl, isLast⟩ := List.append_inj' split rfl
    cases isLast
    exact new
  · rw [List.concat_eq_append, ← List.cons_append, ← List.append_assoc] at split
    exact fits before e' shorter (List.append_inj' split rfl).1

end

inductive Happens (w : World) : Reply → Prop where
  | refused (hr : HResult) (failed : hr ≠ .ok) : Happens w (w.refused hr)
  | acquired (device : Nat) (generation : UInt64) :
      Happens w ⟨{ w with
        pool := w.pool ++ [{ device := some device, generation := generation, active := true }]
        current := some w.pool.length }, .ok, [.acquired w.pool.length]⟩
  | told (marks : Marks) (holds : marks.holdFrames = w.marks.holdFrames) :
      Happens w ⟨{ w with marks := marks }, .ok, []⟩
  | begun (c : Nat) (state : State) (sequence : UInt64) (transitionFlash : Bool) (marks : Marks)
      (isState : w.pool[c]? = some state) (past : state.sequenceFloor < sequence)
      (holds : marks.holdFrames = w.marks.holdFrames) :
      Happens w ⟨{ w.setState c (World.beginState state sequence transitionFlash) with marks := marks },
        .ok, [.begun c sequence]⟩
  | latched (c : Nat) (state state' : State) (marks : Marks) (took : Bool)
      (isState : w.pool[c]? = some state) (began : state.began = true)
      (sameFloor : state'.sequenceFloor = state.sequenceFloor) (isLatched : state'.latched = true)
      (kept : state.latched = true → state'.cachedDecision = state.cachedDecision ∧ took = false)
      (holds : marks.holdFrames = w.marks.holdFrames - if took then 1 else 0) :
      Happens w ⟨{ w.setState c state' with marks := marks }, .ok,
        [.latched c state.sequenceFloor state'.cachedDecision took]⟩
  | ended (c : Nat) (state state' : State) (marks : Marks) (current : Option Nat) (e : FrameEvent)
      (isState : w.pool[c]? = some state) (sameFloor : state'.sequenceFloor = state.sequenceFloor)
      (isOver : state'.began = false) (isEnd : e = .invalidated c ∨ e = .closed c)
      (holds : marks.holdFrames = w.marks.holdFrames) :
      Happens w ⟨{ w.setState c state' with marks := marks, current := current }, .ok, [e]⟩

namespace Marks

theorem put_holdFrames (m : Marks) {write : Marks → Marks}
    (same : (write m).holdFrames = m.holdFrames) : (m.put write).holdFrames = m.holdFrames := by
  unfold put
  split
  · exact same
  · rfl

theorem takeSubmitHoldFrame_holdFrames (m : Marks) :
    m.takeSubmitHoldFrame.1.holdFrames = m.holdFrames - if m.takeSubmitHoldFrame.2 then 1 else 0 := by
  unfold takeSubmitHoldFrame
  split
  · exact (Int.sub_zero _).symm
  · rfl

theorem stopped_holdFrames (m : Marks) :
    (m.clearGlitchFrame.announceCullGuardState 0 1.0 1.0).holdFrames = m.holdFrames :=
  (put_holdFrames _ rfl).trans (put_holdFrames m rfl)

end Marks

namespace World

variable {w : World} {context : Nat} {state : State}

theorem pool_of_live (isLive : w.live context = some state) : w.pool[context]? = some state := by
  exact (Option.filter_eq_some_iff.mp isLive).1

theorem announcePose_holdFrames (m : Marks) (input : NativeFrameInput) :
    (announcePose m input).clearGlitchFrame.holdFrames = m.holdFrames := by
  refine (Marks.put_holdFrames _ rfl).trans ?_
  unfold announcePose
  split
  · rfl
  · exact (Marks.put_holdFrames _ rfl).trans (Marks.put_holdFrames m rfl)

theorem acquire_happens (w : World) (request : Option NativeFrameRequest) (table : Option Header) :
    Happens w (w.edvrAcquireNativeFrame request table) := by
  unfold edvrAcquireNativeFrame
  split
  · exact .refused _ nofun
  split
  · exact .refused _ nofun
  split
  · exact .refused _ nofun
  split
  · exact .refused _ nofun
  split
  · exact .refused _ nofun
  · exact .acquired _ _

theorem beginFrame_happens (w : World) (context : Nat) (input : Option NativeFrameInput)
    (output : Option Header) (transitionFlash : Bool) :
    Happens w (w.beginFrame context input output transitionFlash) := by
  unfold beginFrame
  split
  · rename_i state input output isLive
    split
    · exact .refused _ nofun
    · rename_i allowed
      have allowed : beginAllowed state input output = true := by simpa using allowed
      simp only [beginAllowed, Bool.and_eq_true, decide_eq_true_eq] at allowed
      obtain ⟨⟨⟨_, past⟩, _⟩, _⟩ := allowed
      exact .begun context state input.sequence transitionFlash _ (pool_of_live isLive) past
        (announcePose_holdFrames w.marks input)
  · exact .refused _ nofun

theorem setCullState_happens (w : World) (context : Nat) (stage : UInt32) (factorH factorV : Float32) :
    Happens w (w.setCullState context stage factorH factorV) := by
  unfold setCullState
  split
  · exact .refused _ nofun
  · exact .told _ (Marks.put_holdFrames _ rfl)

theorem latchSubmit_happens (w : World) (context : Nat) (sequence : UInt64) (decision : Option Header) :
    Happens w (w.latchSubmit context sequence decision) := by
  unfold latchSubmit
  split
  · exact .refused _ nofun
  · rename_i state isLive
    split
    · exact .refused _ nofun
    · rename_i asked
      simp only [not_or, Bool.not_eq_true, Bool.not_eq_false, not_not] at asked
      obtain ⟨began, _, _, rfl, _⟩ := asked
      have isState := pool_of_live isLive
      cases was : state.latched with
      | true =>
        exact .latched context state { state with latchCount := state.latchCount + 1 } w.marks false isState began
          rfl was (fun _ => ⟨rfl, rfl⟩) (Int.sub_zero _).symm
      | false =>
        refine .latched context state _ _ _ isState began rfl rfl (fun is => ?_) ?_
        · rw [was] at is
          cases is
        · exact (Marks.put_holdFrames _ rfl).trans (Marks.takeSubmitHoldFrame_holdFrames w.marks)

theorem invalidate_happens (w : World) (context : Nat) : Happens w (w.invalidate context) := by
  unfold invalidate
  split
  · exact .refused _ nofun
  · rename_i state isLive
    exact .ended context state _ _ w.current _ (pool_of_live isLive) rfl rfl (.inl rfl)
      (Marks.stopped_holdFrames w.marks)

theorem close_happens (w : World) (context : Nat) : Happens w (w.close context) := by
  unfold close
  split
  · exact .refused _ nofun
  · rename_i state isState
    split
    · exact .refused _ nofun
    · refine .ended context state _ _ _ _ isState rfl rfl (.inr rfl) ?_
      split
      · exact (Marks.put_holdFrames _ rfl).trans (Marks.stopped_holdFrames w.marks)
      · exact Marks.stopped_holdFrames w.marks

theorem reply_happens (w : World) {call : FrameCall} (own : ∀ marks, call ≠ .others marks) :
    Happens w (w.reply call) := by
  match call with
  | .acquire request table => exact acquire_happens w request table
  | .beginFrame context input output transitionFlash =>
    exact beginFrame_happens w context input output transitionFlash
  | .setCullState context stage factorH factorV => exact setCullState_happens w context stage factorH factorV
  | .latchSubmit context sequence decision => exact latchSubmit_happens w context sequence decision
  | .invalidate context => exact invalidate_happens w context
  | .close context => exact close_happens w context
  | .others marks => exact absurd rfl (own marks)

theorem reply_logs (w : World) (call : FrameCall) :
    (w.reply call).hr = .ok → call.Logs (w.reply call).events := by
  cases call with
  | acquire request table =>
    simp only [reply, edvrAcquireNativeFrame]
    repeat' split
    all_goals intro ok
    case isFalse => exact ⟨_, rfl⟩
    all_goals cases ok
  | beginFrame context input output transitionFlash =>
    simp only [reply, beginFrame]
    split
    · rename_i state input output isLive
      split
      · intro ok
        cases ok
      · intro _
        exact ⟨input, rfl, rfl⟩
    · intro ok
      cases ok
  | setCullState context stage factorH factorV =>
    simp only [reply, setCullState]
    split
    · intro ok
      cases ok
    · intro _
      rfl
  | latchSubmit context sequence decision =>
    simp only [reply, latchSubmit]
    split
    · intro ok
      cases ok
    · split
      · intro ok
        cases ok
      · intro _
        exact ⟨_, _, rfl⟩
  | invalidate context =>
    simp only [reply, invalidate]
    split
    · intro ok
      cases ok
    · intro _
      rfl
  | close context =>
    simp only [reply, close]
    split
    · intro ok
      cases ok
    · split
      · intro ok
        cases ok
      · intro _
        rfl
  | others marks =>
    intro _
    rfl

end World

section

variable {w w' : World} {r : Reply} {log : List FrameEvent} {c : Nat} {state state' : State} {e : FrameEvent}

theorem Happens.unchanged (h : Happens w r) (failed : r.hr ≠ .ok) : r.world = w ∧ r.events = [] := by
  cases h with
  | refused => exact ⟨rfl, rfl⟩
  | _ => exact absurd rfl failed

theorem Happens.holdFrames (h : Happens w r) :
    r.world.marks.holdFrames = w.marks.holdFrames - r.events.countP FrameEvent.took := by
  cases h with
  | refused => exact (Int.sub_zero _).symm
  | acquired => exact (Int.sub_zero _).symm
  | told marks holds => exact holds.trans (Int.sub_zero _).symm
  | begun _ _ _ _ _ _ _ holds => exact holds.trans (Int.sub_zero _).symm
  | latched _ _ _ _ took _ _ _ _ _ holds =>
    refine holds.trans ?_
    cases took <;> rfl
  | ended _ _ _ _ _ _ _ _ _ isEnd holds =>
    refine holds.trans ?_
    rcases isEnd with rfl | rfl <;> exact (Int.sub_zero _).symm

theorem Tracks.turn (h : Tracks w log) (isState : w.pool[c]? = some state) (isPool : w'.pool = w.pool.set c state')
    (foreign : ∀ c', c ≠ c' → e.turns c' = false ∧ e.latches c' = false)
    (follows : Followed c state log → Fits log e ∧ Followed c state' (log ++ [e])) : Tracks w' (log ++ [e]) := by
  have followed := h.followed c
  rw [World.stateOf, isState] at followed
  obtain ⟨fits, own⟩ := follows followed
  refine ⟨fits_snoc h.fits fits, fun c' => ?_⟩
  rw [World.stateOf, isPool]
  by_cases same : c = c'
  · obtain rfl := same
    rw [List.getElem?_set_self (List.getElem?_eq_some_iff.mp isState).1]
    exact own
  · obtain ⟨stays, silent⟩ := foreign c' same
    rw [List.getElem?_set_ne same]
    exact (h.followed c').quiet stays silent

theorem Tracks.happens (h : Tracks w log) (happens : Happens w r) : Tracks r.world (log ++ r.events) := by
  cases happens with
  | refused =>
    refine ⟨fun before e after split => h.fits before e after ?_, fun c => ?_⟩
    · rw [← split]
      exact (List.append_nil _).symm
    · rw [show log ++ (w.refused _).events = log from List.append_nil _]
      exact h.followed c
  | told marks =>
    refine ⟨fun before e after split => h.fits before e after ?_, fun c => ?_⟩
    · rw [← split]
      exact (List.append_nil _).symm
    · rw [List.append_nil]
      exact h.followed c
  | acquired device generation =>
    refine ⟨fits_snoc h.fits trivial, fun c => ?_⟩
    have followed := (h.followed c).quiet (e := .acquired w.pool.length) rfl rfl
    rw [World.stateOf] at followed ⊢
    rcases Nat.lt_trichotomy c w.pool.length with old | rfl | past
    · rw [List.getElem?_append_left old]
      exact followed
    · rw [List.getElem?_eq_none (Nat.le_refl _)] at followed
      rw [List.getElem?_concat_length]
      exact ⟨followed.floor, followed.past, nofun, nofun, nofun⟩
    · rw [List.getElem?_eq_none (Nat.le_of_lt past)] at followed
      rw [List.getElem?_eq_none (by rw [List.length_append]; exact past)]
      exact followed
  | begun c state sequence transitionFlash marks isState past =>
    exact h.turn isState rfl (fun c' other => ⟨decide_eq_false other, rfl⟩)
      fun followed => followed.begun past transitionFlash
  | latched c state state' marks took isState began sameFloor isLatched kept =>
    exact h.turn isState rfl (fun c' other => ⟨rfl, decide_eq_false other⟩)
      fun followed => followed.latched began sameFloor isLatched kept
  | ended c state state' marks current e isState sameFloor isOver isEnd =>
    refine h.turn isState rfl (fun c' other => ?_) fun followed => ?_
    · rcases isEnd with rfl | rfl <;> exact ⟨decide_eq_false other, rfl⟩
    · rcases isEnd with rfl | rfl <;> exact ⟨trivial, followed.ended sameFloor isOver nofun rfl⟩

theorem Tracks.others (h : Tracks w log) (marks : Marks) : Tracks { w with marks := marks } log :=
  ⟨h.fits, h.followed⟩

end

theorem tracks (start : Marks) (calls : List FrameCall) :
    Tracks (frames start calls).1 (frames start calls).2 := by
  refine Lib.traced_induction World.step { marks := start } (P := Tracks) ?_ (fun w log call h => ?_) calls
  · refine ⟨fun before e after split => ?_, fun c => ⟨nofun, nofun, nofun, nofun, nofun⟩⟩
    cases before <;> cases split
  · by_cases own : ∀ marks, call ≠ .others marks
    · exact h.happens (World.reply_happens w own)
    · obtain ⟨marks, rfl⟩ : ∃ marks, call = .others marks := by simpa using own
      show Tracks _ (log ++ [])
      rw [List.append_nil]
      exact h.others marks

structure OneDecision (log : List FrameEvent) : Prop where
  /-- The sequences of a context's begins go up. -/
  increasing : ∀ before c sequence after, log = before ++ FrameEvent.begun c sequence :: after →
    ∀ s, .begun c s ∈ before → s < sequence
  /-- A latch is of the last begun frame, which is not over. -/
  latest : ∀ before c sequence decision took after,
    log = before ++ FrameEvent.latched c sequence decision took :: after → Latest c sequence before
  same : ∀ c sequence d t d' t', .latched c sequence d t ∈ log → .latched c sequence d' t' ∈ log → d = d'
  /-- A hold is taken by the first latch of its frame, and so by no other. -/
  first : ∀ before c sequence decision after, log = before ++ FrameEvent.latched c sequence decision true :: after →
    ∀ d t, .latched c sequence d t ∉ before

theorem Tracks.oneDecision {w : World} {log : List FrameEvent} (h : Tracks w log) : OneDecision log := by
  have earlier : ∀ before c sequence decision took after,
      log = before ++ FrameEvent.latched c sequence decision took :: after →
      ∀ d t, .latched c sequence d t ∈ before → d = decision ∧ took = false :=
    fun before c sequence decision took after split => (h.fits before _ after split).2
  refine ⟨fun before c sequence after split => h.fits before _ after split,
    fun before c sequence decision took after split => (h.fits before _ after split).1, ?_, ?_⟩
  · intro c sequence d t d' t' mem mem'
    obtain ⟨before, after, split⟩ := List.append_of_mem mem
    rw [split] at mem'
    rcases List.mem_append.mp mem' with old | new
    · exact (earlier before c sequence d t after split d' t' old).1.symm
    · rcases List.mem_cons.mp new with same | later
      · cases same
        rfl
      · obtain ⟨between, rest, rfl⟩ := List.append_of_mem later
        have split' : log = (before ++ FrameEvent.latched c sequence d t :: between) ++
            .latched c sequence d' t' :: rest := by rw [split]; simp
        exact (earlier _ c sequence d' t' rest split' d t (by simp)).1
  · intro before c sequence decision after split d t mem
    exact absurd (earlier before c sequence decision true after split d t mem).2 (by decide)

/-- Both eyes of a frame get one decision: the events of every run are in order, a call
that succeeds has its own event there and one that fails none, a call that fails changes
nothing, and the holds go down only where a latch has taken one. -/
theorem frames_oneDecision (start : Marks) (calls : List FrameCall) :
    OneDecision (frames start calls).2 ∧
    ∀ before call after, calls = before ++ call :: after → (∀ marks, call ≠ .others marks) →
      let w := (frames start before).1
      ((w.reply call).hr = .ok → call.Logs (w.reply call).events) ∧
      ((w.reply call).hr ≠ .ok → (w.reply call).world = w ∧ (w.reply call).events = []) ∧
      (w.reply call).world.marks.holdFrames =
        w.marks.holdFrames - (w.reply call).events.countP FrameEvent.took := by
  refine ⟨(tracks start calls).oneDecision, fun before call after _ own => ?_⟩
  have happens := World.reply_happens (frames start before).1 own
  exact ⟨World.reply_logs _ call, happens.unchanged, happens.holdFrames⟩

/-- Two eyes, with the mark and the hold changed in between: the second gets the cached
answer, and one hold is left of two. -/
def bothEyes : List FrameCall :=
  [.acquire (some ⟨requestHeader, some ⟨1, true, false⟩, 7⟩) (some tableHeader),
    .beginFrame 0 (some ⟨inputHeader, 7, 1, 5, fun _ => 0, 0⟩) (some ⟨148, 4⟩) true,
    .others { flag := true, holdFrames := 2 }, .latchSubmit 0 5 (some decisionHeader),
    .others { holdFrames := 1 }, .latchSubmit 0 5 (some decisionHeader)]

theorem frames_oneDecision_bothEyes : OneDecision (frames {} bothEyes).2 ∧
    (frames {} bothEyes).2.map FrameEvent.took = [false, false, true, false] ∧
    (frames {} bothEyes).1.marks.holdFrames = 1 :=
  ⟨(frames_oneDecision {} bothEyes).1, by decide +kernel, by decide +kernel⟩

end EdvrPatch.NativeFrame
