import EdvrPatch.OpenXr.SessionState

/-! The OpenXR side of a session, read off the log alone, and the proof that
the policy object stays in step with it. -/
namespace EdvrPatch.OpenXr

open Lib

inductive Phase where
  | closed
  | deferred
  | begun
  deriving DecidableEq, Repr

def XrSessionState.named : XrSessionState → Bool
  | .unknown | .other _ => false
  | _ => true

structure Protocol where
  session : Nat := 0
  state : XrSessionState := .unknown
  running : Bool := false
  phase : Phase := .closed
  openToken : Option Token := none
  failed : Bool := false
  deriving DecidableEq, Repr

namespace Protocol

def answered (p : Protocol) : Call → Protocol
  | .pollEvent ⟨result, .sessionStateChanged session state⟩ =>
      if result = XrResult.success ∧ session = p.session then { p with state := state } else p
  | .pollEvent _ => p
  | .beginSession answer =>
      if answer = XrResult.success ∨ answer = XrResult.sessionLossPending then
        { p with running := true } else p
  | .endSession answer =>
      if answer = XrResult.success ∨ answer = XrResult.sessionLossPending then
        { p with running := false } else p
  | .waitFrame _ => p
  | .beginFrame answer =>
      if 0 ≤ answer then { p with phase := .begun }
      else { p with phase := .closed, openToken := none }
  | .endFrame _ _ => { p with phase := .closed, openToken := none }

/-- The answer is a hard failure: a code the call has no use for, as every negative
one is, or a state of this session that has no name. -/
def hard (p : Protocol) : Call → Bool
  | .pollEvent ⟨result, event⟩ =>
      if result = XrResult.success then
        match event with
        | .sessionStateChanged session state => session == p.session && !state.named
        | _ => false
      else result != XrResult.eventUnavailable
  | .beginSession answer | .endSession answer | .waitFrame answer | .endFrame _ answer =>
      answer != XrResult.success && answer != XrResult.sessionLossPending
  | .beginFrame answer =>
      answer != XrResult.success && answer != XrResult.frameDiscarded &&
        answer != XrResult.sessionLossPending

def advance (p : Protocol) : Entry → Protocol
  | .call c => { p.answered c with failed := p.failed || p.hard c }
  | .unhandled _ => p
  | .opened token deferred =>
      { p with
        openToken := some token
        phase := if deferred then .deferred else p.phase }
  | .failed _ => { p with failed := true }
  -- A rebinding forgets the old session's state and a failure, and nothing
  -- else: a running session or a begun frame would stay on the books.
  | .rebound session => { p with session := session, state := .unknown, failed := false }
  | .abandoned => {}

theorem answered_failed (p : Protocol) (c : Call) : (p.answered c).failed = p.failed := by
  cases c with
  | pollEvent answer =>
    obtain ⟨result, event⟩ := answer
    cases event with
    | sessionStateChanged session state =>
      simp only [answered]
      split <;> rfl
    | instanceLossPending => rfl
    | other type => rfl
  | waitFrame answer => rfl
  | endFrame info answer => rfl
  | _ answer =>
    simp only [answered]
    split <;> rfl

theorem answered_openToken {p : Protocol} {c : Call} {token : Token}
    (opened : (p.answered c).openToken = some token) : p.openToken = some token := by
  cases c with
  | pollEvent answer =>
    obtain ⟨result, event⟩ := answer
    cases event with
    | sessionStateChanged session state =>
      simp only [answered] at opened
      split at opened <;> exact opened
    | instanceLossPending => exact opened
    | other type => exact opened
  | waitFrame answer => exact opened
  | endFrame info answer => cases opened
  | beginFrame answer =>
    simp only [answered] at opened
    split at opened
    · exact opened
    · cases opened
  | _ answer =>
    simp only [answered] at opened
    split at opened <;> exact opened

theorem advance_call {p : Protocol} {c : Call} (easy : p.hard c = false) :
    p.advance (.call c) = p.answered c := by
  have same := p.answered_failed c
  simp only [advance, easy, Bool.or_false]
  rw [← same]

/-- Which call is lawful where. Nothing is lawful after a hard failure. -/
def allowsCall (p : Protocol) : Call → Prop
  | .pollEvent _ => True
  | .beginSession _ => p.state = .ready ∧ p.running = false
  | .endSession _ => p.running = true ∧ p.phase = .closed
  | .waitFrame _ => p.running = true
  | .beginFrame _ => p.running = true ∧ p.phase ≠ .begun
  | .endFrame _ _ => p.running = true ∧ p.phase = .begun

def allows (p : Protocol) : Entry → Prop
  | .call c => p.failed = false ∧ p.allowsCall c
  | .opened _ deferred => p.failed = false ∧ p.openToken = none ∧
      p.phase = if deferred then .closed else .begun
  | .rebound _ => p.running = false ∧ p.phase = .closed
  | _ => True

end Protocol

def sessionMonitor : Monitor Protocol Entry where
  advance := Protocol.advance
  allows := Protocol.allows

/-- What ties the object to the protocol in every state, failed or not. -/
structure Tied (s : SessionState) (p : Protocol) : Prop where
  session : s.session = p.session
  state : s.state = p.state
  running : s.running = p.running
  openRunning : s.frameOpen = true → s.running = true
  deferredOpen : s.deferred = true → s.frameOpen = true
  stopped : s.running = false → p.phase = .closed ∧ p.openToken = none

/-- The flags of the object against the protocol's own state. The frame flags
mean something only until a hard failure. -/
structure Linked (s : SessionState) (p : Protocol) : Prop extends Tied s p where
  failed : s.hardFailure = p.failed
  terminal : s.hardFailure = true → s.terminal = true
  phase : s.hardFailure = false → p.phase =
    if s.frameOpen then (if s.deferred then .deferred else .begun) else .closed
  openToken : s.hardFailure = false →
    p.openToken = if s.frameOpen then some s.token else none

/-- What a method owes: its log is lawful and the object is in step again. -/
def InStep (p : Protocol) (reply : Reply) : Prop :=
  sessionMonitor.Admits p reply.log ∧
    Linked reply.state (sessionMonitor.after p reply.log)

variable {p : Protocol} {reply : Reply}

theorem Tied.answered {s : SessionState} {c : Call} (tied : Tied s (p.answered c)) :
    Tied s (p.advance (.call c)) :=
  ⟨tied.session, tied.state, tied.running, tied.openRunning, tied.deferredOpen, tied.stopped⟩

theorem InStep.following {entry : Entry} (allowed : p.allows entry)
    (inStep : InStep (p.advance entry) reply) : InStep p (reply.following [entry]) :=
  ⟨⟨allowed, inStep.1⟩, inStep.2⟩

variable {s : SessionState}

theorem Linked.silent (linked : Linked s p) (result : XrResult) (frame : Option Frame) :
    InStep p { state := s, result := result, frame := frame } :=
  ⟨trivial, linked⟩

theorem Tied.fail (tied : Tied s p) (r : XrResult) : InStep p (s.fail r) := by
  refine ⟨⟨trivial, trivial⟩, ?_⟩
  obtain ⟨session, state, running, openRunning, deferredOpen, stopped⟩ := tied
  exact ⟨⟨session, state, running, openRunning, deferredOpen, stopped⟩, rfl, fun _ => rfl,
    nofun, nofun⟩

theorem Linked.note (linked : Linked s p) (r : XrResult) : Linked (s.note r) p := by
  obtain ⟨⟨session, state, running, openRunning, deferredOpen, stopped⟩, failed, terminal, phase,
    openToken⟩ := linked
  refine ⟨⟨session, state, running, openRunning, deferredOpen, stopped⟩, failed, ?_, phase,
    openToken⟩
  intro hard
  simp [SessionState.note, terminal hard]

theorem Linked.terminated (linked : Linked s p) (lifecycle : Lifecycle) :
    Linked { s with terminal := true, lifecycle := lifecycle } p :=
  ⟨⟨linked.session, linked.state, linked.running, linked.openRunning, linked.deferredOpen,
    linked.stopped⟩, linked.failed, fun _ => rfl, linked.phase, linked.openToken⟩

/-- Once the runtime has been given its `xrEndFrame`, no frame is open on
either side. -/
theorem Linked.ended (linked : Linked s p) (info : XrFrameEndInfo) (answer : XrResult) :
    Linked s.clearFrame (p.answered (.endFrame info answer)) := by
  obtain ⟨⟨session, state, running, -, -, -⟩, failed, terminal, -, -⟩ := linked
  exact ⟨⟨session, state, running, nofun, nofun, fun _ => ⟨rfl, rfl⟩⟩,
    failed, terminal, fun _ => rfl, fun _ => rfl⟩

theorem unexpected_of_neg {answer : XrResult} (negative : answer < 0) :
    answer ≠ XrResult.success ∧ answer ≠ XrResult.sessionLossPending := by
  constructor <;> rintro rfl <;> exact absurd negative (by decide)

theorem expected_of_not {answer : XrResult}
    (expected : ¬(answer ≠ XrResult.success ∧ answer ≠ XrResult.sessionLossPending)) :
    answer = XrResult.success ∨ answer = XrResult.sessionLossPending := by
  by_contra h
  exact expected ⟨fun hs => h (.inl hs), fun hl => h (.inr hl)⟩

theorem Linked.finish (linked : Linked s p) (unfailed : s.hardFailure = false)
    (isOpen : s.frameOpen = true) (isBegun : s.deferred = false) (supplied : XrFrameEndInfo)
    (layers : Bool) (answer : XrResult) : InStep p (s.finish supplied layers answer) := by
  apply InStep.following
  · refine ⟨linked.failed.symm.trans unfailed, ?_, ?_⟩
    · rw [← linked.running]
      exact linked.openRunning isOpen
    · rw [linked.phase unfailed, isOpen, isBegun]
      rfl
  · have ended := linked.ended (s.endInfo supplied layers) answer
    split
    · exact ended.toTied.answered.fail _
    · split
      · exact ended.toTied.answered.fail _
      · rename_i expected
        refine ⟨trivial, ?_⟩
        change Linked _ (p.advance (.call (.endFrame _ answer)))
        rw [Protocol.advance_call (by simpa [Protocol.hard] using expected)]
        exact ended.note _

theorem finish_of_nonneg {supplied : XrFrameEndInfo} {layers : Bool} {answer : XrResult}
    (nonneg : ¬(s.finish supplied layers answer).result < 0) :
    (s.finish supplied layers answer).state = s.clearFrame.note answer := by
  unfold SessionState.finish at nonneg ⊢
  dsimp only [Reply.following] at nonneg ⊢
  by_cases negative : answer < 0
  · rw [if_pos negative] at nonneg
    exact absurd negative nonneg
  · rw [if_neg negative] at nonneg ⊢
    by_cases odd : answer ≠ XrResult.success ∧ answer ≠ XrResult.sessionLossPending
    · rw [if_pos odd] at nonneg
      exact absurd (show XrResult.runtimeFailure < 0 by decide) nonneg
    · rw [if_neg odd]

theorem Linked.endSession (linked : Linked s p) (unfailed : s.hardFailure = false)
    (isRunning : s.running = true) (closed : s.frameOpen = false) (answer : XrResult) :
    InStep p (s.endSession answer) := by
  have phase : p.phase = .closed := by
    rw [linked.phase unfailed, closed]
    rfl
  have token : p.openToken = none := by
    rw [linked.openToken unfailed, closed]
    rfl
  have allowed : p.allows (.call (.endSession answer)) :=
    ⟨linked.failed.symm.trans unfailed, linked.running.symm.trans isRunning, phase⟩
  have refused (odd : answer ≠ XrResult.success ∧ answer ≠ XrResult.sessionLossPending) :
      Tied s (p.advance (.call (.endSession answer))) := by
    refine Tied.answered ?_
    rw [show p.answered (.endSession answer) = p by simp [Protocol.answered, odd]]
    exact linked.toTied
  unfold SessionState.endSession
  split
  · rename_i negative
    exact InStep.following allowed ((refused (unexpected_of_neg negative)).fail _)
  · split
    · rename_i odd
      exact InStep.following allowed ((refused odd).fail _)
    · rename_i expected
      have accepted : p.advance (.call (.endSession answer)) = { p with running := false } := by
        rw [Protocol.advance_call (by simpa [Protocol.hard] using expected)]
        simp [Protocol.answered, expected_of_not expected]
      refine ⟨⟨allowed, trivial⟩, ?_⟩
      apply Linked.note
      change Linked _ (p.advance (.call (.endSession answer)))
      rw [accepted]
      split <;>
        exact ⟨⟨linked.session, linked.state, rfl, nofun, nofun, fun _ => ⟨phase, token⟩⟩,
          linked.failed, linked.terminal, fun _ => phase, fun _ => token⟩

theorem Linked.stop (linked : Linked s p) (frameAnswer sessionAnswer : XrResult) :
    InStep p (s.stop frameAnswer sessionAnswer) := by
  unfold SessionState.stop
  split
  · exact linked.silent _ _
  split
  · exact linked.silent _ _
  split
  · exact linked.silent _ _
  rename_i unfailed stopping notDeferred
  have unfailed : s.hardFailure = false := by simpa using unfailed
  have isRunning : s.running = true := by simp_all
  split
  · rename_i isOpen
    have isBegun : s.deferred = false := by simp_all
    have closed := linked.finish unfailed isOpen isBegun {} false frameAnswer
    dsimp only
    split
    · exact closed
    · rename_i nonneg
      have state := finish_of_nonneg nonneg
      obtain ⟨admitted, linked'⟩ := closed
      rw [state] at linked' ⊢
      obtain ⟨admitted', final⟩ := linked'.endSession unfailed isRunning rfl sessionAnswer
      refine ⟨?_, ?_⟩
      · simpa using ⟨admitted, admitted'⟩
      · simpa using final
  · rename_i closed
    exact linked.endSession unfailed isRunning (by simpa using closed) sessionAnswer

theorem Linked.startIfReady (linked : Linked s p) (answer : XrResult) :
    InStep p (s.startIfReady answer) := by
  unfold SessionState.startIfReady
  split
  · exact linked.silent _ _
  split
  · exact linked.silent _ _
  rename_i active ready
  have unfailed : s.hardFailure = false := by
    by_contra h
    exact active (linked.terminal (by simpa using h))
  have isReady : s.state = .ready := by simp_all
  have stopped : s.running = false := by simp_all
  have allowed : p.allows (.call (.beginSession answer)) :=
    ⟨linked.failed.symm.trans unfailed, linked.state.symm.trans isReady,
      linked.running.symm.trans stopped⟩
  have refused (odd : answer ≠ XrResult.success ∧ answer ≠ XrResult.sessionLossPending) :
      Tied s (p.advance (.call (.beginSession answer))) := by
    refine Tied.answered ?_
    rw [show p.answered (.beginSession answer) = p by simp [Protocol.answered, odd]]
    exact linked.toTied
  split
  · rename_i negative
    exact InStep.following allowed ((refused (unexpected_of_neg negative)).fail _)
  split
  · rename_i odd
    exact InStep.following allowed ((refused odd).fail _)
  · rename_i expected
    have accepted : p.advance (.call (.beginSession answer)) = { p with running := true } := by
      rw [Protocol.advance_call (by simpa [Protocol.hard] using expected)]
      simp [Protocol.answered, expected_of_not expected]
    have ⟨phase, token⟩ := linked.stopped stopped
    refine ⟨⟨allowed, trivial⟩, ?_⟩
    apply Linked.note
    change Linked _ (p.advance (.call (.beginSession answer)))
    rw [accepted]
    exact ⟨⟨linked.session, linked.state, rfl, nofun, nofun, fun _ => ⟨phase, token⟩⟩,
      linked.failed, linked.terminal, fun _ => phase, fun _ => token⟩

/-- A begin changes only the phase and the open token, which no tie reads while
the session runs. -/
theorem Tied.begun {t : SessionState} (tied : Tied s p) (isRunning : s.running = true)
    (openRunning : t.frameOpen = true → t.running = true)
    (deferredOpen : t.deferred = true → t.frameOpen = true) (answer : XrResult)
    (session : t.session = s.session) (state : t.state = s.state)
    (running : t.running = s.running) : Tied t (p.advance (.call (.beginFrame answer))) := by
  have same : (p.advance (.call (.beginFrame answer))).session = p.session ∧
      (p.advance (.call (.beginFrame answer))).state = p.state ∧
      (p.advance (.call (.beginFrame answer))).running = p.running := by
    simp only [Protocol.advance, Protocol.answered]
    split <;> exact ⟨rfl, rfl, rfl⟩
  obtain ⟨sameSession, sameState, sameRunning⟩ := same
  refine ⟨?_, ?_, ?_, openRunning, deferredOpen, ?_⟩
  · rw [session, sameSession, tied.session]
  · rw [state, sameState, tied.state]
  · rw [running, sameRunning, tied.running]
  · intro stopped
    rw [running, isRunning] at stopped
    cases stopped

theorem Linked.beginFromWait (linked : Linked s p) (unfailed : s.hardFailure = false)
    (mayOpen : s.mayOpen) (waited : XrResult) (fs : XrFrameState) (answer : XrResult) :
    InStep p (s.beginFromWait waited fs answer) := by
  obtain ⟨-, closed, isRunning, -, -⟩ := mayOpen
  have closed : s.frameOpen = false := by simpa using closed
  have undeferred : s.deferred = false := by
    by_contra h
    exact absurd (linked.deferredOpen (by simpa using h)) (by simp [closed])
  have phase : p.phase = .closed := by
    rw [linked.phase unfailed, closed]
    rfl
  have token : p.openToken = none := by
    rw [linked.openToken unfailed, closed]
    rfl
  have allowed : p.allows (.call (.beginFrame answer)) := by
    refine ⟨linked.failed.symm.trans unfailed, linked.running.symm.trans isRunning, ?_⟩
    rw [phase]
    decide
  have tied : Tied (s.note waited) (p.advance (.call (.beginFrame answer))) :=
    linked.toTied.begun (t := s.note waited) isRunning linked.openRunning linked.deferredOpen
      answer rfl rfl rfl
  unfold SessionState.beginFromWait
  split
  · exact linked.toTied.fail _
  split
  · exact linked.toTied.fail _
  split
  · exact InStep.following allowed (tied.fail _)
  split
  · exact InStep.following allowed (tied.fail _)
  · rename_i nonneg expected
    have begun : p.advance (.call (.beginFrame answer)) = { p with phase := .begun } := by
      rw [Protocol.advance_call (by simpa [Protocol.hard, ← and_assoc] using expected)]
      simp [Protocol.answered, Int.not_lt.mp nonneg]
    apply InStep.following allowed
    rw [begun]
    refine ⟨⟨⟨linked.failed.symm.trans unfailed, token, rfl⟩, trivial⟩, ?_⟩
    refine ⟨⟨linked.session, linked.state, linked.running, fun _ => isRunning, fun _ => rfl, ?_⟩,
      linked.failed, ?_, ?_, fun _ => rfl⟩
    · exact fun stopped => absurd (show s.running = false from stopped) (by simp [isRunning])
    · exact fun hard => absurd (show s.hardFailure = true from hard) (by simp [unfailed])
    · intro _
      simp [SessionState.note, SessionState.openBegun, undeferred, sessionMonitor,
        Protocol.advance]

theorem Linked.waitAndBegin (linked : Linked s p) (waited : XrResult) (fs : XrFrameState)
    (answer : XrResult) : InStep p (s.waitAndBegin waited fs answer) := by
  unfold SessionState.waitAndBegin
  split
  · exact linked.silent _ _
  split
  · exact linked.silent _ _
  · rename_i unfailed mayOpen
    have unfailed : s.hardFailure = false := by simpa using unfailed
    have mayOpen : s.mayOpen := by simpa using mayOpen
    apply InStep.following
    · exact ⟨linked.failed.symm.trans unfailed, linked.running.symm.trans mayOpen.2.2.1⟩
    by_cases hard : p.hard (.waitFrame waited) = true
    · have tied : Tied s (p.advance (.call (.waitFrame waited))) := linked.toTied.answered
      have odd : waited ≠ XrResult.success ∧ waited ≠ XrResult.sessionLossPending := by
        simpa [Protocol.hard] using hard
      unfold SessionState.beginFromWait
      rw [if_pos odd]
      split <;> exact tied.fail _
    · rw [Protocol.advance_call (by simpa using hard)]
      exact linked.beginFromWait unfailed mayOpen waited fs answer

theorem Linked.beginWaited (linked : Linked s p) (waited : XrResult) (fs : XrFrameState)
    (answer : XrResult) : InStep p (s.beginWaited waited fs answer) := by
  unfold SessionState.beginWaited
  split
  · exact linked.silent _ _
  split
  · exact linked.silent _ _
  · rename_i unfailed mayOpen
    exact linked.beginFromWait (by simpa using unfailed) (by simpa using mayOpen) waited fs answer

theorem Linked.openDeferred (linked : Linked s p) (predictedTime period : Int) :
    InStep p (s.openDeferred predictedTime period) := by
  unfold SessionState.openDeferred
  split
  · exact linked.silent _ _
  split
  · exact linked.silent _ _
  · rename_i unfailed mayOpen
    have unfailed : s.hardFailure = false := by simpa using unfailed
    obtain ⟨-, closed, isRunning, -, -⟩ : s.mayOpen := by simpa using mayOpen
    have closed : s.frameOpen = false := by simpa using closed
    have phase : p.phase = .closed := by
      rw [linked.phase unfailed, closed]
      rfl
    have token : p.openToken = none := by
      rw [linked.openToken unfailed, closed]
      rfl
    refine ⟨⟨⟨linked.failed.symm.trans unfailed, token, phase⟩, trivial⟩, ?_⟩
    refine ⟨⟨linked.session, linked.state, linked.running, fun _ => isRunning, fun _ => rfl, ?_⟩,
      linked.failed, linked.terminal, fun _ => rfl, fun _ => rfl⟩
    exact fun stopped => absurd (show s.running = false from stopped) (by simp [isRunning])

theorem Linked.beginDeferred (linked : Linked s p) (waited : XrResult) (fs : XrFrameState)
    (answer : XrResult) : InStep p (s.beginDeferred waited fs answer) := by
  unfold SessionState.beginDeferred
  split
  · exact linked.silent _ _
  split
  · exact linked.silent _ _
  rename_i unfailed frame
  have unfailed : s.hardFailure = false := by simpa using unfailed
  have isOpen : s.frameOpen = true := by simp_all
  have isDeferred : s.deferred = true := by simp_all
  have isRunning := linked.openRunning isOpen
  have phase : p.phase = .deferred := by
    rw [linked.phase unfailed, isOpen, isDeferred]
    rfl
  have allowed : p.allows (.call (.beginFrame answer)) := by
    refine ⟨linked.failed.symm.trans unfailed, linked.running.symm.trans isRunning, ?_⟩
    rw [phase]
    decide
  -- A frame dropped before or after its begin is closed on the object's side.
  have dropped (r : XrResult) : Tied (({ s with deferred := false }).note r).clearFrame
      (p.advance (.call (.beginFrame answer))) := by
    refine linked.toTied.begun isRunning ?_ ?_ answer ?_ ?_ ?_
    · exact nofun
    · exact nofun
    · rfl
    · rfl
    · rfl
  have waitFailed : Tied ({ s with deferred := false }).clearFrame p :=
    ⟨linked.session, linked.state, linked.running, nofun, nofun, linked.stopped⟩
  split
  · exact waitFailed.fail _
  split
  · exact waitFailed.fail _
  split
  · exact InStep.following allowed ((dropped waited).fail _)
  split
  · exact InStep.following allowed ((dropped waited).fail _)
  · rename_i nonneg expected
    have begun : p.advance (.call (.beginFrame answer)) = { p with phase := .begun } := by
      rw [Protocol.advance_call (by simpa [Protocol.hard, ← and_assoc] using expected)]
      simp [Protocol.answered, Int.not_lt.mp nonneg]
    refine ⟨⟨allowed, trivial⟩, ?_⟩
    change Linked _ (p.advance (.call (.beginFrame answer)))
    rw [begun]
    refine ⟨⟨linked.session, linked.state, linked.running, linked.openRunning, nofun, ?_⟩,
      linked.failed, ?_, ?_, linked.openToken⟩
    · exact fun stopped => absurd (show s.running = false from stopped) (by simp [isRunning])
    · exact fun hard => absurd (show s.hardFailure = true from hard) (by simp [unfailed])
    · intro _
      simp [SessionState.note, isOpen]

theorem Linked.endFrame (linked : Linked s p) (frame : Frame) (supplied : XrFrameEndInfo)
    (ready : RenderReady) (answer : XrResult) :
    InStep p (s.endFrame frame supplied ready answer) := by
  unfold SessionState.endFrame
  split
  · exact linked.silent _ _
  split
  · exact linked.silent _ _
  split
  · exact linked.silent _ _
  dsimp only
  split
  · exact linked.silent _ _
  · rename_i unfailed stale isDeferred _
    have isOpen : s.frameOpen = true := by
      by_contra h
      exact stale (.inl h)
    exact linked.finish (by simpa using unfailed) isOpen (by simpa using isDeferred) _ _ _

theorem Linked.reset (linked : Linked s p) (d : Dispatch) (instanceHandle session : Nat)
    (blend : BlendMode) : InStep p (s.reset d instanceHandle session blend) := by
  unfold SessionState.reset
  split
  · exact linked.silent _ _
  split
  · exact linked.silent _ _
  split
  · exact linked.silent _ _
  split
  · exact linked.silent _ _
  · rename_i busy _ _ _
    have stopped : s.running = false := by simp_all
    have running : p.running = false := linked.running.symm.trans stopped
    have ⟨phase, token⟩ := linked.stopped stopped
    refine ⟨⟨⟨running, phase⟩, trivial⟩, ?_⟩
    exact ⟨⟨rfl, rfl, running.symm, nofun, nofun, fun _ => ⟨phase, token⟩⟩, rfl, nofun,
      fun _ => phase, fun _ => token⟩

theorem Linked.abandon : InStep p s.abandonAfterOwnerDestruction :=
  ⟨⟨trivial, trivial⟩, ⟨rfl, rfl, rfl, nofun, nofun, fun _ => ⟨rfl, rfl⟩⟩, rfl, nofun,
    fun _ => rfl, fun _ => rfl⟩

variable {answer : PollAnswer}

theorem Linked.stateChanged (linked : Linked s p) (succeeded : answer.result = XrResult.success)
    {session : Nat} {changed : XrSessionState}
    (event : answer.event = .sessionStateChanged session changed) (mine : session = s.session)
    (lifecycle : Lifecycle) :
    Linked { s with state := changed, lifecycle := lifecycle } (p.answered (.pollEvent answer)) := by
  have answered : p.answered (.pollEvent answer) = { p with state := changed } := by
    obtain ⟨result, _⟩ := answer
    dsimp only at succeeded event
    subst event
    simp [Protocol.answered, succeeded, mine, linked.session]
  rw [answered]
  exact ⟨⟨linked.session, rfl, linked.running, linked.openRunning, linked.deferredOpen,
    linked.stopped⟩, linked.failed, linked.terminal, linked.phase, linked.openToken⟩

theorem answered_pollEvent_other
    (other : ∀ state, answer.result = XrResult.success → answer.event ≠ .sessionStateChanged p.session state) :
    p.answered (.pollEvent answer) = p := by
  obtain ⟨result, event⟩ := answer
  cases event with
  | instanceLossPending => rfl
  | other type => rfl
  | sessionStateChanged session state =>
    simp only [Protocol.answered]
    rw [if_neg]
    rintro ⟨succeeded, rfl⟩
    exact other state succeeded rfl

theorem advance_pollEvent_other
    (code : answer.result = XrResult.success ∨ answer.result = XrResult.eventUnavailable)
    (other : ∀ state, answer.result = XrResult.success → answer.event ≠ .sessionStateChanged p.session state) :
    p.advance (.call (.pollEvent answer)) = p := by
  rw [Protocol.advance_call, answered_pollEvent_other other]
  obtain ⟨result, event⟩ := answer
  simp only [Protocol.hard]
  split
  · rename_i succeeded
    cases event with
    | instanceLossPending => rfl
    | other type => rfl
    | sessionStateChanged session state =>
      have stranger : session ≠ p.session := by
        rintro rfl
        exact other state succeeded rfl
      simp [stranger]
  · rename_i failed
    simpa using code.resolve_left failed

theorem hard_pollEvent_named {session : Nat} {changed : XrSessionState}
    (event : answer.event = .sessionStateChanged session changed) (named : changed.named = true)
    (succeeded : answer.result = XrResult.success) : p.hard (.pollEvent answer) = false := by
  obtain ⟨result, _⟩ := answer
  dsimp only at event succeeded
  subst event
  simp [Protocol.hard, named, succeeded]

theorem InStep.polled (unfailed : p.failed = false)
    (inStep : InStep (p.advance (.call (.pollEvent answer))) reply) :
    InStep p (reply.following [.call (.pollEvent answer)]) :=
  InStep.following ⟨unfailed, trivial⟩ inStep

theorem InStep.unhandled {event : XrEvent} (unfailed : p.failed = false)
    (inStep : InStep (p.advance (.call (.pollEvent answer))) reply) :
    InStep p (reply.following ([Entry.call (.pollEvent answer)] ++ s.unhandled event)) := by
  unfold SessionState.unhandled
  split
  · exact ⟨⟨⟨unfailed, trivial⟩, trivial, inStep.1⟩, inStep.2⟩
  · exact InStep.polled unfailed inStep

theorem Linked.pollLoop (linked : Linked s p) (unfailed : s.hardFailure = false)
    (answers : Nat → PollAnswer) (i budget : Nat) : InStep p (s.pollLoop answers i budget) := by
  induction budget generalizing s p i with
  | zero => exact linked.silent _ _
  | succ budget ih =>
    have pUnfailed : p.failed = false := linked.failed.symm.trans unfailed
    unfold SessionState.pollLoop
    dsimp only
    split
    · rename_i unavailable
      have same : p.advance (.call (.pollEvent (answers i))) = p :=
        advance_pollEvent_other (.inr unavailable) fun _ succeeded => by
          rw [unavailable] at succeeded
          cases succeeded
      exact ⟨⟨⟨pUnfailed, trivial⟩, trivial⟩, by
        simpa [sessionMonitor, Monitor.after, same] using linked⟩
    split
    · rename_i unsuccessful
      have tied : Tied s (p.answered (.pollEvent (answers i))) := by
        rw [answered_pollEvent_other fun _ succeeded => absurd succeeded unsuccessful]
        exact linked.toTied
      exact InStep.polled pUnfailed (tied.answered.fail _)
    · rename_i succeeded
      have succeeded : (answers i).result = XrResult.success := by simpa using succeeded
      split
      · rename_i event
        have same : p.advance (.call (.pollEvent (answers i))) = p :=
          advance_pollEvent_other (.inl succeeded) fun _ _ => by simp [event]
        refine ⟨⟨⟨pUnfailed, trivial⟩, trivial⟩, ?_⟩
        change Linked _ (p.advance (.call (.pollEvent (answers i))))
        rw [same]
        exact linked.terminated _
      · rename_i event
        apply InStep.unhandled pUnfailed
        rw [advance_pollEvent_other (.inl succeeded) fun _ _ => by simp [event]]
        exact ih linked unfailed _
      · rename_i session changed event
        split
        · rename_i stranger
          apply InStep.unhandled pUnfailed
          rw [advance_pollEvent_other (.inl succeeded) fun _ _ => by
            rw [event, ← linked.session]
            intro same
            injection same with same
            exact stranger same]
          exact ih linked unfailed _
        · rename_i mine
          have mine : session = s.session := by simpa using mine
          have answered := linked.stateChanged succeeded event mine
          have moved (named : changed.named = true) (lifecycle : Lifecycle) :
              Linked { s with state := changed, lifecycle := lifecycle }
                (p.advance (.call (.pollEvent (answers i)))) := by
            rw [Protocol.advance_call (hard_pollEvent_named event named succeeded)]
            exact answered lifecycle
          have silent (named : changed.named = true) (lifecycle : Lifecycle) (result : XrResult) :
              InStep p { state := { s with state := changed, lifecycle := lifecycle }
                         log := [.call (.pollEvent (answers i))], result := result } :=
            ⟨⟨⟨pUnfailed, trivial⟩, trivial⟩, moved named lifecycle⟩
          split
          · exact InStep.polled pUnfailed (ih (moved rfl _) unfailed _)
          · exact InStep.polled pUnfailed (ih (moved rfl _) unfailed _)
          · exact InStep.polled pUnfailed (ih (moved rfl _) unfailed _)
          · exact InStep.polled pUnfailed (ih (moved rfl _) unfailed _)
          · exact silent rfl _ _
          · exact silent rfl _ _
          · exact ⟨⟨⟨pUnfailed, trivial⟩, trivial⟩, (moved rfl .exiting).terminated _⟩
          · exact ⟨⟨⟨pUnfailed, trivial⟩, trivial⟩, (moved rfl s.lifecycle).note _⟩
          · exact InStep.polled pUnfailed ((answered s.lifecycle).toTied.answered.fail _)
          · exact InStep.polled pUnfailed ((answered s.lifecycle).toTied.answered.fail _)

theorem Linked.pollEvents (linked : Linked s p) (budget : Nat) (answers : Nat → PollAnswer) :
    InStep p (s.pollEvents budget answers) := by
  unfold SessionState.pollEvents
  split
  · exact linked.silent _ _
  split
  · exact linked.toTied.fail _
  split
  · exact linked.toTied.fail _
  split
  · exact linked.silent _ _
  · rename_i active _ _ _
    apply linked.pollLoop
    by_contra h
    exact active (linked.terminal (by simpa using h))

theorem sessionMachine_keeps : sessionMachine.Keeps sessionMonitor Linked := by
  intro s p method linked
  cases method with
  | reset d instanceHandle session blend => exact linked.reset d instanceHandle session blend
  | abandonAfterOwnerDestruction => exact Linked.abandon
  | setUnhandledEventSink sink =>
    exact ⟨trivial, ⟨linked.session, linked.state, linked.running, linked.openRunning,
      linked.deferredOpen, linked.stopped⟩, linked.failed, linked.terminal, linked.phase,
      linked.openToken⟩
  | pollEvents budget answers => exact linked.pollEvents budget answers
  | startIfReady answer => exact linked.startIfReady answer
  | waitAndBegin waited fs answer => exact linked.waitAndBegin waited fs answer
  | beginWaited waited fs answer => exact linked.beginWaited waited fs answer
  | openDeferred time period => exact linked.openDeferred time period
  | beginDeferred waited fs answer => exact linked.beginDeferred waited fs answer
  | endFrame frame supplied ready answer => exact linked.endFrame frame supplied ready answer
  | stop frameAnswer sessionAnswer => exact linked.stop frameAnswer sessionAnswer

theorem Linked.unbound (owner : UInt64) : Linked (SessionState.unbound owner) {} :=
  ⟨⟨rfl, rfl, rfl, nofun, nofun, fun _ => ⟨rfl, rfl⟩⟩, rfl, nofun, fun _ => rfl, fun _ => rfl⟩

theorem Construction.inStep (owner : UInt64) (built : Construction) :
    InStep {} (built.construct owner) := by
  cases built with
  | unbound => exact (Linked.unbound owner).silent _ _
  | bound d instanceHandle session blend =>
    have reset := (Linked.unbound owner).reset d instanceHandle session blend
    unfold Construction.construct SessionState.bound
    dsimp only
    split
    · have failed := reset.2.toTied.fail
        ((SessionState.unbound owner).reset d instanceHandle session blend).result
      refine ⟨?_, ?_⟩
      · simpa using ⟨reset.1, failed.1⟩
      · simpa using failed.2
    · exact reset

theorem sessionLog_inStep (owner : UInt64) (built : Construction) (methods : List Method) :
    sessionMonitor.Admits {} (sessionLog owner built methods) ∧
      Linked (sessionAfter owner built methods)
        (sessionMonitor.after {} (sessionLog owner built methods)) := by
  obtain ⟨admitted, linked⟩ := Construction.inStep owner built
  obtain ⟨later, final⟩ := sessionMachine.run_keeps sessionMachine_keeps methods linked
  refine ⟨?_, ?_⟩
  · simpa [sessionLog] using ⟨admitted, later⟩
  · simpa [sessionLog, sessionAfter] using final

def LawfulCalls (log : List Entry) : Prop :=
  ∀ first c rest, log = first ++ Entry.call c :: rest →
    (sessionMonitor.after {} first).failed = false ∧
      (sessionMonitor.after {} first).allowsCall c

/-- Between two begins that both succeeded there is an entry that `closes`. -/
def BeginsSeparated (closes : Entry → Prop) (log : List Entry) : Prop :=
  ∀ first middle rest a b,
    log = first ++ Entry.call (.beginFrame a) :: (middle ++ Entry.call (.beginFrame b) :: rest) →
      0 ≤ a → 0 ≤ b → ∃ e ∈ middle, closes e

def Entry.IsEndFrame : Entry → Prop
  | .call (.endFrame _ _) => True
  | _ => False

def Entry.IsAbandoned : Entry → Prop
  | .abandoned => True
  | _ => False

/-- A begun frame stays begun through a lawful stretch of log without an end
or an abandonment. -/
theorem phase_begun_of_admits {log : List Entry} (begun : p.phase = .begun)
    (admitted : sessionMonitor.Admits p log) (kept : ∀ e ∈ log, ¬(e.IsEndFrame ∨ e.IsAbandoned)) :
    (sessionMonitor.after p log).phase = .begun := by
  induction log generalizing p with
  | nil => exact begun
  | cons e rest ih =>
    obtain ⟨allowed, later⟩ := admitted
    refine ih ?_ later fun e' member => kept e' (List.mem_cons_of_mem _ member)
    have keeps := kept e List.mem_cons_self
    change (p.advance e).phase = .begun
    match e, allowed, keeps with
    | .call (.pollEvent answer), _, _ =>
      obtain ⟨result, event⟩ := answer
      cases event with
      | instanceLossPending => exact begun
      | other type => exact begun
      | sessionStateChanged session state =>
        simp only [Protocol.advance, Protocol.answered]
        split <;> exact begun
    | .call (.beginSession answer), _, _ =>
      simp only [Protocol.advance, Protocol.answered]
      split <;> exact begun
    | .call (.endSession answer), _, _ =>
      simp only [Protocol.advance, Protocol.answered]
      split <;> exact begun
    | .call (.waitFrame _), _, _ => exact begun
    | .call (.beginFrame answer), allowed, _ => exact absurd begun allowed.2.2
    | .call (.endFrame info answer), _, keeps => exact absurd (.inl trivial) keeps
    | .unhandled _, _, _ => exact begun
    | .opened token true, allowed, _ =>
      have closed := allowed.2.2
      rw [begun] at closed
      cases closed
    | .opened _ false, _, _ => exact begun
    | .failed _, _, _ => exact begun
    | .rebound _, _, _ => exact begun
    | .abandoned, _, keeps => exact absurd (.inr trivial) keeps

/-- The policy issues only lawful call sequences: in every life of the object,
whatever the runtime answers, each dispatched call is one the protocol allows
at that point, and two successful begins are separated by an `xrEndFrame` or by
the owner's destruction of the session. -/
theorem sessionState_calls_lawful (owner : UInt64) (built : Construction)
    (methods : List Method) :
    LawfulCalls (sessionLog owner built methods) ∧
      BeginsSeparated (fun e => e.IsEndFrame ∨ e.IsAbandoned)
        (sessionLog owner built methods) := by
  have admitted := (sessionLog_inStep owner built methods).1
  refine ⟨?_, ?_⟩
  · intro first c rest split
    rw [split] at admitted
    exact admitted.allows_at
  · intro first middle rest a b split succeeded _
    rw [split] at admitted
    obtain ⟨-, -, later⟩ := (Monitor.admits_append ..).mp admitted
    obtain ⟨between, next⟩ := (Monitor.admits_append ..).mp later
    by_contra none
    have begun : ((sessionMonitor.after {} first).advance (.call (.beginFrame a))).phase =
        .begun := by
      simp [Protocol.advance, Protocol.answered, succeeded]
    have still := phase_begun_of_admits begun between fun e member closes =>
      none ⟨e, member, closes⟩
    exact next.1.2.2 still

def openFirst : List Method :=
  [ .reset ⟨true, true, true, true, true, true⟩ 1 1 .modeOpaque,
    .pollEvents 1 (fun _ => ⟨0, .sessionStateChanged 1 .ready⟩),
    .startIfReady 0,
    .waitAndBegin 0 ⟨0, 0, 1⟩ 0 ]

/-- A frame that is open when its owner destroys the session is never ended, so
the next session's begin follows it directly. -/
theorem begins_meet_across_abandon :
    ¬BeginsSeparated Entry.IsEndFrame
      (sessionLog 1 .unbound (openFirst ++ Method.abandonAfterOwnerDestruction :: openFirst)) := by
  intro separated
  obtain ⟨e, member, closes⟩ := separated
    [ .rebound 1, .call (.pollEvent ⟨0, .sessionStateChanged 1 .ready⟩),
      .call (.beginSession 0), .call (.waitFrame 0) ]
    [ .opened ⟨1, 2, 1⟩ false, .abandoned, .rebound 1,
      .call (.pollEvent ⟨0, .sessionStateChanged 1 .ready⟩), .call (.beginSession 0),
      .call (.waitFrame 0) ]
    [.opened ⟨1, 5, 1⟩ false] 0 0 (by decide) (by decide) (by decide)
  simp only [List.mem_cons, List.not_mem_nil, or_false] at member
  rcases member with rfl | rfl | rfl | rfl | rfl | rfl <;> exact closes

end EdvrPatch.OpenXr
