import EdvrPatch.OpenXr.LoopLawful
import EdvrPatch.OpenXr.SessionProtocol

/-! What `drain` leaves of a boundary: an open frame in the session, or a wait in the
pacer. -/
namespace EdvrPatch.OpenXr

open Lib

namespace SessionState

/-- The loss of the instance is only ever noted of a session that is over. -/
def Noted (s : SessionState) : Prop := s.lifecycle = .instanceLossPending → s.terminal = true

variable {s : SessionState}

theorem Noted.other (other : s.lifecycle ≠ .instanceLossPending) : s.Noted :=
  fun noted => absurd noted other

theorem Noted.fail (s : SessionState) (r : XrResult) : (s.fail r).state.Noted :=
  fun _ => rfl

theorem Noted.note (noted : s.Noted) (r : XrResult) : (s.note r).Noted := by
  intro lost
  unfold SessionState.note at lost ⊢
  split at lost
  · cases lost
  · rw [noted lost, Bool.true_or]

theorem Noted.finish (noted : s.Noted) (supplied : XrFrameEndInfo) (layers : Bool)
    (answer : XrResult) : (s.finish supplied layers answer).state.Noted := by
  unfold SessionState.finish
  split
  · exact .fail _ _
  split
  · exact .fail _ _
  · exact Noted.note (s := s.clearFrame) noted answer

theorem Noted.endSession (noted : s.Noted) (answer : XrResult) :
    (s.endSession answer).state.Noted := by
  unfold SessionState.endSession
  dsimp only
  split
  · exact .fail _ _
  split
  · exact .fail _ _
  · split
    · exact Noted.note (s := ({ s with running := false }).clearFrame) noted answer
    · exact Noted.note (.other (by simp)) answer

theorem Noted.beginFromWait (noted : s.Noted) (waited : XrResult) (fs : XrFrameState)
    (answer : XrResult) : (s.beginFromWait waited fs answer).state.Noted := by
  unfold SessionState.beginFromWait
  split
  · exact .fail _ _
  split
  · exact .fail _ _
  split
  · exact .fail _ _
  split
  · exact .fail _ _
  · exact (noted.note waited).note answer

theorem Noted.pollLoop (noted : s.Noted) (answers : Nat → PollAnswer) (i budget : Nat) :
    (s.pollLoop answers i budget).state.Noted := by
  induction budget generalizing s i with
  | zero => exact noted
  | succ budget ih =>
    unfold SessionState.pollLoop
    dsimp only
    split
    · exact noted
    split
    · exact .fail _ _
    split
    · exact fun _ => rfl
    · exact ih noted _
    · split
      · exact ih noted _
      · split
        · exact ih (.other (by simp)) _
        · exact ih (.other (by simp)) _
        · exact ih (.other (by simp)) _
        · exact ih (.other (by simp)) _
        · exact .other (by simp)
        · exact .other (by simp)
        · exact .other (by simp)
        · exact Noted.note (s := { s with state := .lossPending }) noted _
        · exact .fail _ _
        · exact .fail _ _

theorem Noted.call (noted : s.Noted) (method : Method) : (s.call method).state.Noted := by
  cases method with
  | reset d instanceHandle session blend =>
    change (s.reset d instanceHandle session blend).state.Noted
    unfold SessionState.reset
    split
    · exact noted
    split
    · exact noted
    split
    · exact noted
    split
    · exact noted
    · exact .other (by simp [SessionState.clear])
  | abandonAfterOwnerDestruction => exact .other (by simp [SessionState.call,
      SessionState.abandonAfterOwnerDestruction, SessionState.clear])
  | setUnhandledEventSink sink => exact noted
  | pollEvents budget answers =>
    change (s.pollEvents budget answers).state.Noted
    unfold SessionState.pollEvents
    split
    · exact noted
    split
    · exact .fail _ _
    split
    · exact .fail _ _
    split
    · exact noted
    · exact noted.pollLoop answers 0 _
  | startIfReady answer =>
    change (s.startIfReady answer).state.Noted
    unfold SessionState.startIfReady
    split
    · exact noted
    split
    · exact noted
    split
    · exact .fail _ _
    split
    · exact .fail _ _
    · exact Noted.note (s := ({ s with
        running := true, generation := s.generation + 1, sequence := 0 }).clearFrame) noted answer
  | waitAndBegin waited fs answer =>
    change (s.waitAndBegin waited fs answer).state.Noted
    unfold SessionState.waitAndBegin
    split
    · exact noted
    split
    · exact noted
    · exact noted.beginFromWait waited fs answer
  | beginWaited waited fs answer =>
    change (s.beginWaited waited fs answer).state.Noted
    unfold SessionState.beginWaited
    split
    · exact noted
    split
    · exact noted
    · exact noted.beginFromWait waited fs answer
  | openDeferred time period =>
    change (s.openDeferred time period).state.Noted
    unfold SessionState.openDeferred
    split
    · exact noted
    split
    · exact noted
    · exact noted
  | beginDeferred waited fs answer =>
    change (s.beginDeferred waited fs answer).state.Noted
    unfold SessionState.beginDeferred
    split
    · exact noted
    split
    · exact noted
    split
    · exact .fail _ _
    split
    · exact .fail _ _
    split
    · exact .fail _ _
    split
    · exact .fail _ _
    · exact Noted.note (Noted.note (s := { s with deferred := false }) noted waited) answer
  | endFrame frame supplied ready answer =>
    change (s.endFrame frame supplied ready answer).state.Noted
    unfold SessionState.endFrame
    split
    · exact noted
    split
    · exact noted
    split
    · exact noted
    dsimp only
    split
    · exact noted
    · exact noted.finish supplied (s.frameShouldRender && !s.terminal && s.state != .stopping &&
        ready.poseValid && ready.renderReady) answer
  | stop frameAnswer sessionAnswer =>
    change (s.stop frameAnswer sessionAnswer).state.Noted
    unfold SessionState.stop
    split
    · exact noted
    split
    · exact noted
    split
    · exact noted
    split
    · have finished := noted.finish {} false frameAnswer
      dsimp only
      split
      · exact finished
      · exact finished.endSession sessionAnswer
    · exact noted.endSession sessionAnswer

end SessionState

/-- The flags of the session fit some state of the session protocol. -/
structure Tracked (s : SessionState) : Prop where
  linked : ∃ p, Linked s p
  noted : s.Noted

theorem Tracked.call {s : SessionState} (tracked : Tracked s) (method : Method) :
    Tracked (s.call method).state := by
  obtain ⟨p, linked⟩ := tracked.linked
  exact ⟨⟨_, (sessionMachine_keeps s p method linked).2⟩, tracked.noted.call method⟩

theorem Tracked.construct (owner : UInt64) (built : Construction) :
    Tracked (built.construct owner).state := by
  refine ⟨⟨_, (Construction.inStep owner built).2⟩, ?_⟩
  cases built with
  | unbound => exact .other (by simp [Construction.construct, SessionState.unbound])
  | bound d instanceHandle session blend =>
    have reset := SessionState.Noted.call (s := SessionState.unbound owner)
      (.other (by simp [SessionState.unbound])) (.reset d instanceHandle session blend)
    change (SessionState.bound owner d instanceHandle session blend).state.Noted
    unfold SessionState.bound
    dsimp only
    split
    · exact .fail _ _
    · exact reset

/-- A frame that is open while the pacer holds a wait is one that waits for its begin. -/
structure Paced (b : FrameBoundary) : Prop where
  tracked : Tracked b.session
  unopened : b.pacerPending = true → b.deferred = false → b.failed = false → ¬b.session.Live

variable {b : FrameBoundary}

theorem Paced.idle (tracked : Tracked b.session) (idle : b.pacerPending = false) : Paced b :=
  ⟨tracked, fun pending => absurd (idle.symm.trans pending) (by decide)⟩

theorem Paced.failure (tracked : Tracked b.session) (failed : b.failed = true) : Paced b :=
  ⟨tracked, fun _ _ unfailed => absurd (unfailed.symm.trans failed) (by decide)⟩

/-- A method of the session that opens nothing keeps the boundary paced, whatever becomes
of its other fields. -/
theorem Paced.closes {c : FrameBoundary} (paced : Paced b) (method : Method)
    (closes : Closes b.session (b.session.call method))
    (session : c.session = (b.session.call method).state) (pacer : c.pacer = b.pacer)
    (deferred : c.deferred = b.deferred) (failed : c.failed = false → b.failed = false) :
    Paced c := by
  refine ⟨?_, fun pending notDeferred unfailed live => ?_⟩
  · rw [session]
    exact paced.tracked.call method
  · have before := paced.unopened (by rw [← pending, FrameBoundary.pacerPending,
      FrameBoundary.pacerPending, pacer])
      (deferred ▸ notDeferred) (failed unfailed)
    rw [session] at live
    cases closes with
    | quiet none kept => exact before (kept live)
    | ended one was after => exact after live

namespace FrameBoundary

variable {b : FrameBoundary}

theorem takeWait_cases {late waited : WaitAnswer} {log : List LoopEntry} {taken : FrameBoundary}
    (take : b.takeWait late = some (taken, log, waited)) :
    taken.pacerPending = false ∧ ∃ pacer, taken = { b with pacer := pacer } := by
  unfold takeWait at take
  split at take
  · cases take
  · rename_i pacer _ _ took
    cases take
    refine ⟨?_, some pacer, rfl⟩
    obtain ⟨p, -, took⟩ := Option.bind_eq_some_iff.mp took
    unfold FramePacer.take at took
    split at took
    · cases took
    · cases took
      rfl

theorem noteReal_session (b : FrameBoundary) (waited : XrResult) (time period realAt : Int) :
    (b.noteReal waited time period realAt).session = b.session := by
  unfold noteReal
  split <;> rfl

theorem noteReal_failed (b : FrameBoundary) (waited : XrResult) (time period realAt : Int) :
    (b.noteReal waited time period realAt).failed = b.failed := by
  unfold noteReal
  split <;> rfl

theorem noteReal_pacerPending (b : FrameBoundary) (waited : XrResult) (time period realAt : Int) :
    (b.noteReal waited time period realAt).pacerPending = b.pacerPending := by
  unfold pacerPending
  rw [noteReal_pacer]

theorem completeDeferred_paced (paced : Paced b) (answers : Answers) :
    Paced (b.completeDeferred answers).boundary := by
  unfold completeDeferred
  split
  · exact .failure paced.tracked rfl
  rename_i taken log waited take
  obtain ⟨idle, pacer, rfl⟩ := takeWait_cases take
  have tracked (s : SessionState) (same : s = b.session) :
      Tracked (s.beginDeferred waited.result waited.state answers.begun).state := by
    rw [same]
    exact paced.tracked.call (.beginDeferred waited.result waited.state answers.begun)
  dsimp only
  split
  · exact .failure (tracked _ (noteReal_session ..)) rfl
  · refine .idle (tracked _ (noteReal_session ..)) ?_
    exact (noteReal_pacerPending ..).trans idle

theorem complete_paced (paced : Paced b) (answers : Answers) :
    Paced (b.complete answers).boundary := by
  unfold complete
  split
  · exact completeDeferred_paced paced answers
  · exact paced

theorem endEmpty_paced (paced : Paced b) (answers : Answers) :
    Paced (b.endEmpty answers).boundary := by
  have closes := endFrame_closes b.session b.frame {} ⟨false, false⟩ answers.ended
  unfold endEmpty
  dsimp only
  split
  · exact .failure (paced.tracked.call (.endFrame b.frame {} ⟨false, false⟩ answers.ended)) rfl
  · exact Paced.closes paced (.endFrame b.frame {} ⟨false, false⟩ answers.ended) closes rfl rfl rfl id

theorem clear_paced (paced : Paced b) (ownerThread : Bool) (answers : Answers) :
    Paced (b.clear ownerThread answers).boundary := by
  unfold clear
  split
  · exact paced
  split
  · exact paced
  split
  · have begun := complete_paced paced answers
    dsimp only
    split
    · exact endEmpty_paced begun answers
    · exact begun
  · exact ⟨paced.tracked, paced.unopened⟩

theorem openSynthesized_paced (tracked : Tracked b.session) :
    Paced b.openSynthesized.boundary := by
  have opened := tracked.call (.openDeferred b.synthesizedTime b.lastPeriod)
  unfold openSynthesized
  dsimp only
  split
  · exact .failure opened rfl
  · exact ⟨opened, fun _ notDeferred => absurd notDeferred (by simp [handOut, admitFrame])⟩

theorem openTaken_paced (paced : Paced b) (answers : Answers) :
    Paced (b.openTaken answers).boundary := by
  unfold openTaken
  split
  · exact paced
  rename_i taken log waited take
  obtain ⟨idle, pacer, rfl⟩ := takeWait_cases take
  have tracked (s : SessionState) (same : s = b.session) :
      Tracked (s.beginWaited waited.result waited.state answers.begun).state := by
    rw [same]
    exact paced.tracked.call (.beginWaited waited.result waited.state answers.begun)
  dsimp only
  split
  · exact .failure (tracked _ (noteReal_session ..)) rfl
  · refine .idle (tracked _ (noteReal_session ..)) ?_
    exact (noteReal_pacerPending ..).trans idle

theorem openDirect_paced (tracked : Tracked b.session) (idle : b.pacerPending = false)
    (answers : Answers) : Paced (b.openDirect answers).boundary := by
  have opened := tracked.call
    (.waitAndBegin answers.waited.result answers.waited.state answers.begun)
  unfold openDirect
  dsimp only
  split
  · exact .failure opened rfl
  · refine .idle ?_ ?_
    · change Tracked (noteReal _ _ _ _ _).session
      rw [noteReal_session]
      exact opened
    · exact (noteReal_pacerPending ..).trans idle

theorem openFrame_paced (paced : Paced b) (answers : Answers) :
    Paced (b.openFrame answers).boundary := by
  unfold openFrame
  split
  · split
    · exact openSynthesized_paced paced.tracked
    · exact openTaken_paced paced answers
  · rename_i notPending
    have idle : b.pacerPending = false := by simpa using notPending
    split
    · split
      · exact openSynthesized_paced paced.tracked
      · exact openDirect_paced paced.tracked idle answers
    · exact openDirect_paced paced.tracked idle answers

theorem waitAndBegin_paced (paced : Paced b) (ownerThread : Bool) (pacing : FramePacing)
    (waitEntry : Int) (closing opening : Answers) :
    Paced (b.waitAndBegin ownerThread pacing waitEntry closing opening).boundary := by
  unfold waitAndBegin
  split
  · exact paced
  split
  · exact paced
  · have closed := clear_paced paced ownerThread closing
    dsimp only
    split
    · exact closed
    · refine openFrame_paced ?_ opening
      exact ⟨closed.tracked, closed.unopened⟩

theorem not_live_of_endFrame {s : SessionState} {frame : Frame} {info : XrFrameEndInfo}
    {ready : RenderReady} {answer : XrResult}
    (ended : (s.endFrame frame info ready answer).result = XrResult.success) :
    ¬(s.endFrame frame info ready answer).state.Live := by
  unfold SessionState.endFrame at ended ⊢
  split at ended
  · rename_i hard
    rw [if_pos hard]
    exact not_live_of_failed hard
  rename_i unfailed
  rw [if_neg unfailed]
  split at ended
  · exact absurd ended (show XrResult.callOrderInvalid ≠ XrResult.success by decide)
  rename_i fresh
  rw [if_neg fresh]
  split at ended
  · exact absurd ended (show XrResult.callOrderInvalid ≠ XrResult.success by decide)
  rename_i begun
  rw [if_neg begun]
  dsimp only at ended ⊢
  split at ended
  · exact absurd ended (show XrResult.validationFailure ≠ XrResult.success by decide)
  rename_i layered
  rw [if_neg layered]
  generalize (s.frameShouldRender && !s.terminal && s.state != .stopping && ready.poseValid &&
    ready.renderReady) = layers
  unfold SessionState.finish
  split
  · exact not_live_of_failed rfl
  split
  · exact not_live_of_failed rfl
  · exact not_live_of_closed rfl

theorem kickNext_paced (paced : Paced b) (closed : b.lastResult = XrResult.success → ¬b.session.Live) :
    Paced b.kickNext := by
  unfold kickNext
  split
  · rename_i after
    split
    · exact ⟨paced.tracked, fun _ _ _ => closed after.2.1⟩
    · exact paced
  · exact paced

theorem finishBegun_paced (paced : Paced b) (ownerThread background : Bool) (answers : Answers)
    (sink : SinkAnswers) : Paced (b.finishBegun ownerThread background answers sink).boundary := by
  unfold finishBegun
  dsimp only
  split
  · refine .failure ?_ rfl
    split
    · exact (clear_paced paced ownerThread answers).tracked
    · exact paced.tracked
  split
  · exact .failure (clear_paced paced ownerThread answers).tracked rfl
  · generalize (b.geometryReady && b.frame.shouldRender && !b.session.terminal &&
      (background || sink.sceneLayerAvailable)) = pixels
    generalize ({ layerCount := if pixels then 1 else 0, layers := pixels } : XrFrameEndInfo) = info
    have ended := @not_live_of_endFrame b.session b.frame info ⟨b.geometryReady, pixels⟩ answers.ended
    have closes := endFrame_closes b.session b.frame info ⟨b.geometryReady, pixels⟩ answers.ended
    have tracked := paced.tracked.call (.endFrame b.frame info ⟨b.geometryReady, pixels⟩ answers.ended)
    refine kickNext_paced ?_ ?_
    · split
      · exact .failure tracked rfl
      · exact Paced.closes paced (.endFrame b.frame info ⟨b.geometryReady, pixels⟩ answers.ended) closes
          rfl rfl rfl id
    · split
      · rename_i failed
        exact fun success => absurd success failed
      · exact ended

theorem finish_paced (paced : Paced b) (ownerThread background : Bool) (answers : Answers)
    (sink : SinkAnswers) : Paced (b.finish ownerThread background answers sink).boundary := by
  have begun := complete_paced paced answers
  unfold finish
  dsimp only
  split
  · exact begun
  · exact begun
  · refine finishBegun_paced ?_ ownerThread background answers sink
    split
    · exact ⟨begun.tracked, begun.unopened⟩
    · exact begun

theorem accept_paced (paced : Paced b) (eye : EVREye) : Paced (b.accept eye) := by
  cases eye <;> exact ⟨paced.tracked, paced.unopened⟩

theorem publish_paced (paced : Paced b) (ownerThread : Bool) (eye : EVREye)
    (captured : EVRCompositorError) : Paced (b.publish ownerThread eye captured).boundary := by
  unfold publish
  split
  · exact paced
  split
  · exact paced
  split
  · exact paced
  split
  · exact paced
  · exact accept_paced paced eye

theorem drainWait_paced (paced : Paced b) (answers : Answers) :
    Paced (b.drainWait answers).boundary := by
  unfold drainWait
  split
  · exact paced
  rename_i taken log waited take
  obtain ⟨idle, pacer, rfl⟩ := takeWait_cases take
  dsimp only at idle ⊢
  split
  · have tracked (s : SessionState) (same : s = b.session) :
        Tracked (s.beginWaited waited.result waited.state answers.begun).state := by
      rw [same]
      exact paced.tracked.call (.beginWaited waited.result waited.state answers.begun)
    have begun := tracked _ (noteReal_session { b with pacer := pacer } waited.result
      waited.state.predictedDisplayTime waited.state.predictedDisplayPeriod answers.realAt)
    split
    · refine .idle (begun.call (.endFrame ..)) ?_
      exact (noteReal_pacerPending ..).trans idle
    · refine .idle begun ?_
      exact (noteReal_pacerPending ..).trans idle
  · exact .idle paced.tracked idle

theorem drain_paced (paced : Paced b) (ownerThread : Bool) (closing scratch : Answers) :
    Paced (b.drain ownerThread closing scratch).boundary := by
  unfold drain
  split
  · exact paced
  split
  · exact paced
  have cleared := clear_paced paced ownerThread closing
  dsimp only
  split
  · exact cleared
  split
  · exact drainWait_paced cleared scratch
  · exact cleared

theorem movePacer_paced (paced : Paced b) {move : FramePacer → FramePacer × List LoopEntry}
    (kept : ∀ p : FramePacer, (move p).1.pending = true → p.pending = true) :
    Paced (b.movePacer move).1 := by
  unfold movePacer
  split
  · exact paced
  · rename_i p isPacer
    refine ⟨paced.tracked, fun pending => paced.unopened ?_⟩
    unfold pacerPending
    rw [isPacer]
    exact kept p pending

theorem step_paced (paced : Paced b) (step : LoopStep) : Paced (b.step step).1 := by
  cases step with
  | waitAndBegin ownerThread pacing waitEntry closing opening =>
    exact waitAndBegin_paced paced ownerThread pacing waitEntry closing opening
  | setGeometryReady ownerThread ready =>
    change Paced (b.setGeometryReady ownerThread ready)
    unfold setGeometryReady
    split
    · exact ⟨paced.tracked, paced.unopened⟩
    · exact paced
  | publish ownerThread eye captured => exact publish_paced paced ownerThread eye captured
  | finishPair ownerThread answers sink => exact finish_paced paced ownerThread false answers sink
  | submit ownerThread eye captured answers sink =>
    have published := publish_paced paced ownerThread eye captured
    change Paced (b.submit ownerThread eye captured answers sink).boundary
    unfold submit
    dsimp only
    split
    · exact published
    · exact finish_paced published ownerThread false answers sink
  | background ownerThread answers sink =>
    change Paced (b.background ownerThread answers sink).boundary
    unfold background
    split
    · exact paced
    split
    · exact paced
    split
    · exact paced
    · exact finish_paced paced ownerThread true answers sink
  | clear ownerThread answers => exact clear_paced paced ownerThread answers
  | drain ownerThread closing scratch => exact drain_paced paced ownerThread closing scratch
  | workerStarts =>
    refine movePacer_paced paced fun p pending => ?_
    unfold FramePacer.workerStarts at pending
    split at pending <;> exact pending
  | workerReturns answer =>
    refine movePacer_paced paced fun p pending => ?_
    unfold FramePacer.workerReturns at pending
    split at pending <;> exact pending
  | bindPacer bound inFlight => exact movePacer_paced paced fun p pending => absurd pending Bool.false_ne_true
  | stopPacer inFlight => exact movePacer_paced paced fun p pending => absurd pending Bool.false_ne_true
  | host method => exact Paced.closes paced method.method (host_closes b.session method) rfl rfl rfl id

end FrameBoundary

theorem Paced.construct (owner : UInt64) (built : Construction) (paced : Bool) :
    Paced (FrameBoundary.construct owner built paced) := by
  refine .idle (.construct owner built) ?_
  cases paced <;> rfl

theorem Paced.run (paced : Paced b) (steps : List LoopStep) :
    Paced (loopMachine.run b steps).1 := by
  induction steps generalizing b with
  | nil => exact paced
  | cons step _ ih => exact ih (FrameBoundary.step_paced paced step)

/-- The answers to a wait and to the begin on it that open a frame without being
`XR_SUCCESS` both. -/
def OpensAside (waited begun : XrResult) : Prop :=
  SuccessfulWait waited ∧
    (begun = XrResult.success ∨ begun = XrResult.frameDiscarded ∨
      begun = XrResult.sessionLossPending) ∧
    ¬(waited = XrResult.success ∧ begun = XrResult.success)

namespace SessionState

variable {s : SessionState}

theorem note_lastResult (active : s.terminal = false) (noted : s.Noted) (r : XrResult) :
    (s.note r).lastResult = r := by
  have known : s.lifecycle ≠ .instanceLossPending := fun lost => by
    have ended := noted lost
    rw [active] at ended
    cases ended
  by_cases loss : r = XrResult.sessionLossPending
  · simp [SessionState.note, loss, known]
  · simp [SessionState.note, loss, active]

theorem note_lastResult_of_loss (loss : s.terminal = true) (pending : s.lifecycle = .lossPending)
    (r : XrResult) : (s.note r).lastResult = XrResult.sessionLossPending := by
  simp [SessionState.note, loss, pending]

theorem noted_success_iff (active : s.terminal = false) (noted : s.Noted)
    (waited begun : XrResult) (successful : SuccessfulWait waited) :
    ((s.note waited).note begun).lastResult = XrResult.success ↔
      waited = XrResult.success ∧ begun = XrResult.success := by
  rcases successful with rfl | rfl
  · have quiet : (s.note XrResult.success).terminal = false := by
      simp [SessionState.note, active, XrResult.success, XrResult.sessionLossPending]
    rw [note_lastResult quiet (noted.note _)]
    simp
  · have known : s.lifecycle ≠ .instanceLossPending := fun lost => by
      have ended := noted lost
      rw [active] at ended
      cases ended
    rw [note_lastResult_of_loss (by simp [SessionState.note]) (by simp [SessionState.note, known])]
    exact ⟨fun same => absurd same (by decide), fun both => absurd both.1 (by decide)⟩

theorem beginFromWait_cases (active : s.terminal = false) (noted : s.Noted) (waited : XrResult)
    (fs : XrFrameState) (answer : XrResult) :
    ((s.beginFromWait waited fs answer).state.hardFailure = true ∧
      ¬OpensAside waited answer) ∨
      ((s.beginFromWait waited fs answer).state.frameOpen = true ∧
        (s.beginFromWait waited fs answer).state.hardFailure = s.hardFailure ∧
        (s.beginFromWait waited fs answer).state.deferred = s.deferred ∧
        (∃ frame, (s.beginFromWait waited fs answer).frame = some frame ∧
          frame.token = (s.beginFromWait waited fs answer).state.token) ∧
        ((s.beginFromWait waited fs answer).result = XrResult.success ↔
          ¬OpensAside waited answer)) := by
  unfold SessionState.beginFromWait
  split
  · rename_i negative
    refine .inl ⟨rfl, fun aside => ?_⟩
    rcases aside.1 with rfl | rfl <;> exact absurd negative (by decide)
  split
  · rename_i odd
    refine .inl ⟨rfl, fun aside => ?_⟩
    exact aside.1.elim odd.1 odd.2
  rename_i expected
  have successful := successfulWait_of_expected expected
  dsimp only
  split
  · rename_i negative
    refine .inl ⟨rfl, fun aside => ?_⟩
    rcases aside.2.1 with rfl | rfl | rfl <;> exact absurd negative (by decide)
  split
  · rename_i odd
    refine .inl ⟨rfl, fun aside => ?_⟩
    rcases aside.2.1 with same | same | same
    · exact odd.1 same
    · exact odd.2.1 same
    · exact odd.2.2 same
  · rename_i accepted
    have known : answer = XrResult.success ∨ answer = XrResult.frameDiscarded ∨
        answer = XrResult.sessionLossPending := by
      by_contra odd
      exact accepted ⟨fun h => odd (.inl h), fun h => odd (.inr (.inl h)),
        fun h => odd (.inr (.inr h))⟩
    refine .inr ⟨rfl, rfl, rfl, ⟨_, rfl, rfl⟩, ?_⟩
    refine (noted_success_iff active noted waited answer successful).trans ?_
    exact ⟨fun both aside => aside.2.2 both, fun beside => by
      by_contra aside
      exact beside ⟨successful, known, aside⟩⟩

theorem endFrame_hard (hard : s.hardFailure = true) (frame : Frame) (info : XrFrameEndInfo)
    (ready : RenderReady) (answer : XrResult) :
    (s.endFrame frame info ready answer).state.hardFailure = true := by
  unfold SessionState.endFrame
  rw [if_pos hard]
  exact hard

theorem endFrame_open {frame : Frame} (begun : s.deferred = false) (token : frame.token = s.token)
    (ready : RenderReady) (answer : XrResult) :
    (s.endFrame frame {} ready answer).state.hardFailure = true ∨
      (s.endFrame frame {} ready answer).state.frameOpen = false := by
  unfold SessionState.endFrame
  split
  · rename_i hard
    exact .inl hard
  split
  · rename_i stale
    refine .inr ?_
    have fresh : ¬s.frameOpen = true := by
      rcases stale with closed | sequence | generation | owner
      · exact closed
      · exact absurd (congrArg Token.sequence token) sequence
      · exact absurd (congrArg Token.generation token) generation
      · exact absurd (congrArg Token.owner token) owner
    simpa using fresh
  rw [if_neg (by simp [begun])]
  rw [if_neg (by simp)]
  generalize (s.frameShouldRender && !s.terminal && s.state != .stopping && ready.poseValid &&
    ready.renderReady) = layers
  unfold SessionState.finish
  split
  · exact .inl rfl
  split
  · exact .inl rfl
  · exact .inr rfl

end SessionState

/-- Neither the boundary nor its session has failed, and yet a frame is open or a wait is
pending. -/
def FrameBoundary.Leaves (b : FrameBoundary) : Prop :=
  b.failed = false ∧ b.session.hardFailure = false ∧
    ¬(b.session.frameOpen = false ∧ b.pacerPending = false)

/-- The owner comes with no frame open to a wait that it may begin a frame on, and the
runtime's answers open one without being `XR_SUCCESS` both. -/
def FrameBoundary.DropsFrame (b : FrameBoundary) (scratch : Answers) : Prop :=
  b.failed = false ∧ b.session.mayOpen ∧ ∃ p, b.pacer = some p ∧ p.pending = true ∧
    OpensAside (if p.done then p.answer.result else scratch.waited.result) scratch.begun

namespace FrameBoundary

variable {b : FrameBoundary}

theorem takeWait_pending {p : FramePacer} (isPacer : b.pacer = some p) (pending : p.pending = true)
    (calling : p.calling = true → p.done = false) (late : WaitAnswer) :
    ∃ pacer log, b.takeWait late =
      some ({ b with pacer := some pacer }, log, if p.done then p.answer else late) ∧
        pacer.pending = false := by
  unfold takeWait
  rw [isPacer, Option.bind_some]
  unfold FramePacer.take
  rw [if_neg (by simp [pending])]
  refine ⟨_, _, congrArg some (congrArg _ (congrArg _ ?_)), rfl⟩
  cases done : p.done with
  | true =>
    have asleep : p.calling = false := by
      by_contra awake
      rw [calling (by simpa using awake)] at done
      cases done
    simp [FramePacer.workerReturns, asleep]
  | false =>
    cases awake : p.calling <;>
      simp [FramePacer.workerStarts, FramePacer.workerReturns, pending, done, awake]

theorem drainWait_leaves_iff (paced : Paced b) (unfailed : b.failed = false)
    (closed : b.session.frameOpen = false) {p : FramePacer} (isPacer : b.pacer = some p)
    (pending : p.pending = true) (calling : p.calling = true → p.done = false) (scratch : Answers) :
    (b.drainWait scratch).boundary.Leaves ↔ b.DropsFrame scratch := by
  obtain ⟨pacer, log, take, idle⟩ := takeWait_pending isPacer pending calling scratch.waited
  have drops : b.DropsFrame scratch ↔ b.session.mayOpen ∧
      OpensAside (if p.done then p.answer else scratch.waited).result scratch.begun := by
    unfold DropsFrame
    rw [isPacer, apply_ite WaitAnswer.result]
    exact ⟨fun ⟨_, mayOpen, _, same, _, aside⟩ => ⟨mayOpen, Option.some.inj same ▸ aside⟩,
      fun ⟨mayOpen, aside⟩ => ⟨unfailed, mayOpen, p, rfl, pending, aside⟩⟩
  rw [drops]
  unfold drainWait
  rw [take]
  generalize (if p.done then p.answer else scratch.waited) = waited
  have isIdle (c : FrameBoundary) (same : c.pacer = some pacer) : c.pacerPending = false := by
    unfold pacerPending
    rw [same]
    exact idle
  have deferred : b.session.deferred = false := by
    obtain ⟨_, linked⟩ := paced.tracked.linked
    by_contra isDeferred
    rw [linked.deferredOpen (by simpa using isDeferred)] at closed
    cases closed
  dsimp only
  split
  · rename_i admitted
    obtain ⟨_, active, _⟩ := admitted
    have session := noteReal_session { b with pacer := some pacer } waited.result
      waited.state.predictedDisplayTime waited.state.predictedDisplayPeriod scratch.realAt
    have isPacer' := noteReal_pacer { b with pacer := some pacer } waited.result
      waited.state.predictedDisplayTime waited.state.predictedDisplayPeriod scratch.realAt
    have failed := noteReal_failed { b with pacer := some pacer } waited.result
      waited.state.predictedDisplayTime waited.state.predictedDisplayPeriod scratch.realAt
    generalize noteReal { b with pacer := some pacer } waited.result
      waited.state.predictedDisplayTime waited.state.predictedDisplayPeriod scratch.realAt = noted
      at session isPacer' failed ⊢
    rw [session]
    have terminal : b.session.terminal = false := by simpa using active
    have unhard : ¬b.session.hardFailure = true := fun hard => by
      obtain ⟨_, linked⟩ := paced.tracked.linked
      rw [linked.terminal hard] at terminal
      cases terminal
    unfold SessionState.beginWaited
    rw [if_neg unhard]
    split
    · rename_i refused
      refine ⟨fun leaves => ?_, fun aside => absurd aside.1 refused⟩
      exact absurd ⟨closed, isIdle _ isPacer'⟩ leaves.2.2
    rename_i mayOpen
    have mayOpen : b.session.mayOpen := not_not.mp mayOpen
    rcases SessionState.beginFromWait_cases terminal paced.tracked.noted waited.result waited.state
      scratch.begun with ⟨hard, beside⟩ | ⟨isOpen, soft, begun, ⟨frame, isFrame, token⟩, success⟩
    · refine ⟨fun leaves => ?_, fun aside => absurd aside.2 beside⟩
      exfalso
      have soft := leaves.2.1
      split at soft
      · exact absurd ((SessionState.endFrame_hard hard ..).symm.trans soft) (by decide)
      · exact absurd (hard.symm.trans soft) (by decide)
    · rw [isFrame]
      split
      · rename_i ended
        refine ⟨fun leaves => ?_, fun aside => absurd aside.2 (success.mp ended)⟩
        rcases SessionState.endFrame_open (begun.trans deferred) token ⟨false, false⟩ scratch.ended with
          hard | shut
        · exact absurd (hard.symm.trans leaves.2.1) (by decide)
        · exact absurd ⟨shut, isIdle _ isPacer'⟩ leaves.2.2
      · rename_i unended
        refine ⟨fun _ => ⟨mayOpen, ?_⟩, fun _ => ⟨failed.trans unfailed, ?_, fun shut => ?_⟩⟩
        · by_contra beside
          exact unended (success.mpr beside)
        · exact soft.trans (by simpa using unhard)
        · exact absurd (isOpen.symm.trans shut.1) (by decide)
  · rename_i refused
    refine ⟨fun leaves => absurd ⟨closed, isIdle _ rfl⟩ leaves.2.2, fun aside => ?_⟩
    exact absurd ⟨aside.1.2.2.1, aside.1.1, aside.2.1⟩ refused

theorem drainWait_hard (hard : b.session.hardFailure = true) (scratch : Answers) :
    (b.drainWait scratch).boundary.session.hardFailure = true := by
  unfold drainWait
  split
  · exact hard
  rename_i taken log waited take
  obtain ⟨-, pacer, rfl⟩ := takeWait_cases take
  dsimp only
  split
  · have begun (s : SessionState) (same : s = b.session) :
        (s.beginWaited waited.result waited.state scratch.begun).state.hardFailure = true := by
      unfold SessionState.beginWaited
      rw [if_pos (same ▸ hard)]
      exact same ▸ hard
    have hard' := begun _ (noteReal_session { b with pacer := pacer } waited.result
      waited.state.predictedDisplayTime waited.state.predictedDisplayPeriod scratch.realAt)
    split
    · exact SessionState.endFrame_hard hard' _ _ _ _
    · exact hard'
  · exact hard

theorem clear_of_closed (unfailed : b.failed = false) (closed : b.session.frameOpen = false)
    (answers : Answers) : b.clear true answers =
      { boundary := { b with accepted := (false, false), geometryReady := false }
        result := XrResult.success } := by
  unfold clear
  rw [if_neg (by decide), if_neg (by simp [unfailed]), if_neg (by simp [closed])]

theorem complete_uncompleted (answers : Answers) (uncompleted : (b.complete answers).result ≠ .completed) :
    (b.complete answers).boundary.failed = true ∧
      (b.complete answers).boundary.lastResult ≠ XrResult.success := by
  unfold complete at uncompleted ⊢
  split
  · rename_i isDeferred
    rw [if_pos isDeferred] at uncompleted
    unfold completeDeferred at uncompleted ⊢
    split
    · exact ⟨rfl, show XrResult.callOrderInvalid ≠ XrResult.success by decide⟩
    · rename_i taken log waited take
      rw [take] at uncompleted
      dsimp only at uncompleted ⊢
      split
      · rename_i refused
        exact ⟨rfl, refused.1⟩
      · rename_i accepted
        rw [if_neg accepted] at uncompleted
        exact absurd rfl uncompleted
  · rename_i direct
    rw [if_neg direct] at uncompleted
    exact absurd rfl uncompleted

theorem complete_completed (answers : Answers) (completed : (b.complete answers).result = .completed) :
    (b.deferred = false ∧ (b.complete answers).boundary = b) ∨
      (b.complete answers).boundary.pacerPending = false := by
  unfold complete at completed ⊢
  split
  · rename_i isDeferred
    rw [if_pos isDeferred] at completed
    unfold completeDeferred at completed ⊢
    split
    · rename_i take
      rw [take] at completed
      cases completed
    · rename_i taken log waited take
      obtain ⟨idle, pacer, rfl⟩ := takeWait_cases take
      have after := (noteReal_pacerPending { ({ b with pacer := pacer } : FrameBoundary) with deferred := false }
        waited.result waited.state.predictedDisplayTime waited.state.predictedDisplayPeriod
        answers.realAt).trans idle
      dsimp only
      split
      · exact .inr after
      · exact .inr after
  · rename_i direct
    exact .inl ⟨by simpa using direct, rfl⟩

theorem endEmpty_failed (answers : Answers) (result : (b.endEmpty answers).result ≠ XrResult.success) :
    (b.endEmpty answers).boundary.failed = true := by
  unfold endEmpty at result ⊢
  dsimp only at result ⊢
  rw [if_pos result]

theorem endEmpty_session (answers : Answers) : (b.endEmpty answers).boundary.session =
    (b.session.endFrame b.frame {} ⟨false, false⟩ answers.ended).state := by
  unfold endEmpty
  dsimp only
  split <;> rfl

theorem endEmpty_pacerPending (answers : Answers) :
    (b.endEmpty answers).boundary.pacerPending = b.pacerPending := by
  unfold endEmpty
  dsimp only
  split <;> rfl

theorem clear_failed (unfailed : b.failed = false) (answers : Answers)
    (result : (b.clear true answers).result ≠ XrResult.success) :
    (b.clear true answers).boundary.failed = true := by
  unfold clear at result ⊢
  rw [if_neg (by decide), if_neg (by simp [unfailed])] at result ⊢
  split at result
  · rename_i isOpen
    rw [if_pos isOpen]
    dsimp only at result ⊢
    split at result
    · rename_i completed
      rw [if_pos completed]
      exact endEmpty_failed answers result
    · rename_i uncompleted
      rw [if_neg uncompleted]
      exact (complete_uncompleted answers uncompleted).1
  · exact absurd rfl result

theorem clear_of_open (paced : Paced b) (unfailed : b.failed = false)
    (isOpen : b.session.frameOpen = true) (answers : Answers)
    (result : (b.clear true answers).result = XrResult.success) :
    (b.clear true answers).boundary.session.hardFailure = true ∨
      ((b.clear true answers).boundary.session.frameOpen = false ∧
        (b.clear true answers).boundary.pacerPending = false) := by
  unfold clear at result ⊢
  rw [if_neg (by decide), if_neg (by simp [unfailed]), if_pos isOpen] at result ⊢
  dsimp only at result ⊢
  split at result
  · rename_i completed
    rw [if_pos completed]
    change (endEmpty _ answers).result = XrResult.success at result
    change (endEmpty _ answers).boundary.session.hardFailure = true ∨
      ((endEmpty _ answers).boundary.session.frameOpen = false ∧
        (endEmpty _ answers).boundary.pacerPending = false)
    rw [endEmpty_session, endEmpty_pacerPending]
    have shut := not_live_of_endFrame (show (SessionState.endFrame _ _ _ _ _).result = _ from result)
    by_cases hard : ((b.complete answers).boundary.session.endFrame (b.complete answers).boundary.frame {}
      ⟨false, false⟩ answers.ended).state.hardFailure = true
    · exact .inl hard
    refine .inr ⟨?_, ?_⟩
    · by_contra stillOpen
      exact shut ⟨by simpa using stillOpen, by simpa using hard⟩
    · rcases complete_completed answers completed with ⟨direct, same⟩ | idle
      · rw [same] at hard ⊢
        by_contra pending
        refine hard (SessionState.endFrame_hard ?_ ..)
        by_contra soft
        exact paced.unopened (by simpa using pending) direct unfailed ⟨isOpen, by simpa using soft⟩
      · exact idle
  · rename_i uncompleted
    exact absurd result (complete_uncompleted answers uncompleted).2

theorem drain_leaves_iff (paced : Paced b) (calling : ∀ p ∈ b.pacer, p.calling = true → p.done = false)
    (closing scratch : Answers) :
    (b.drain true closing scratch).boundary.Leaves ↔ b.DropsFrame scratch := by
  unfold drain
  rw [if_neg (by decide)]
  split
  · rename_i failed
    exact ⟨fun leaves => absurd (leaves.1.symm.trans failed) (by decide),
      fun drops => absurd (drops.1.symm.trans failed) (by decide)⟩
  rename_i unfailed
  have unfailed : b.failed = false := by simpa using unfailed
  by_cases isOpen : b.session.frameOpen = true
  · have kept : ¬b.DropsFrame scratch := fun drops => drops.2.1.2.1 isOpen
    refine ⟨fun leaves => ?_, fun drops => absurd drops kept⟩
    dsimp only at leaves
    split at leaves
    · rename_i result
      exact absurd (leaves.1.symm.trans (clear_failed unfailed closing result)) (by decide)
    rename_i result
    have cleared := clear_of_open paced unfailed isOpen closing (not_not.mp result)
    split at leaves
    · rename_i pending
      rcases cleared with hard | ⟨-, idle⟩
      · exact absurd (leaves.2.1.symm.trans (drainWait_hard hard scratch)) (by decide)
      · exact absurd (idle.symm.trans pending) (by decide)
    · rcases cleared with hard | nothing
      · exact absurd (leaves.2.1.symm.trans hard) (by decide)
      · exact absurd nothing leaves.2.2
  · have closed : b.session.frameOpen = false := by simpa using isOpen
    rw [clear_of_closed unfailed closed]
    change Leaves (Outcome.boundary (if b.pacerPending = true then _ else _)) ↔ _
    split
    · rename_i pending
      obtain ⟨p, isPacer, isPending⟩ := (Option.any_eq_true ..).mp pending
      exact drainWait_leaves_iff (b := { b with accepted := (false, false), geometryReady := false })
        ⟨paced.tracked, paced.unopened⟩ unfailed closed isPacer isPending (calling p isPacer) scratch
    · rename_i idle
      have idle : b.pacerPending = false := by simpa using idle
      refine ⟨fun leaves => absurd ⟨closed, idle⟩ leaves.2.2, fun drops => ?_⟩
      obtain ⟨-, -, p, isPacer, pending, -⟩ := drops
      unfold pacerPending at idle
      rw [isPacer, Option.any_some, pending] at idle
      cases idle

end FrameBoundary

/-- A boundary after any run of its methods, of its pacer's worker and of its host. -/
def boundaryAfter (owner : UInt64) (built : Construction) (paced : Bool) (steps : List LoopStep) :
    FrameBoundary :=
  (loopMachine.run (FrameBoundary.construct owner built paced) steps).1

/-- In every reachable state and for all answers: once `drain` returns to its owner and
nothing has failed, no frame is open and no wait is pending, except exactly where it has
begun a frame on its own wait with other codes than `XR_SUCCESS`. -/
theorem drain_leaves_nothing_iff (owner : UInt64) (built : Construction) (paced : Bool)
    (steps : List LoopStep) (closing scratch : Answers) :
    let b := boundaryAfter owner built paced steps
    let drained := (b.drain true closing scratch).boundary
    (drained.failed = false → drained.session.hardFailure = false →
        drained.session.frameOpen = false ∧ drained.pacerPending = false) ↔
      ¬b.DropsFrame scratch := by
  intro b drained
  have isPaced : Paced b := (Paced.construct owner built paced).run steps
  have inLoop := (loopMachine.run_keeps loopMachine_keeps steps
    (FrameBoundary.construct_inLoop owner built paced)).2
  have leaves := FrameBoundary.drain_leaves_iff isPaced
    (fun p isPacer calling => (inLoop.calling p isPacer calling).2) closing scratch
  rw [← leaves]
  refine ⟨fun nothing left => left.2.2 (nothing left.1 left.2.1), fun kept unfailed soft => ?_⟩
  by_contra left
  exact kept ⟨unfailed, soft, left⟩

/-- A loading frame under the deferred pacing, after which the next wait is kicked. -/
def kickedSteps : List LoopStep :=
  [ .host (.reset ⟨true, true, true, true, true, true⟩ 1 1 .modeOpaque),
    .host (.pollEvents 1 fun _ => ⟨0, .sessionStateChanged 1 .ready⟩),
    .host (.startIfReady 0), .bindPacer true {},
    .waitAndBegin true .deferred 1 {} { waited := ⟨0, ⟨100, 10, 1⟩⟩, realAt := 1 },
    .background true {} {} ]

/-- The runtime discards the frame that `drain` begins on the kicked wait; nothing has
failed, and the frame stays open. -/
theorem discarded_frame_stays_open :
    ¬∀ (owner : UInt64) (built : Construction) (paced : Bool) (steps : List LoopStep)
      (closing scratch : Answers),
      let drained := ((boundaryAfter owner built paced steps).drain true closing scratch).boundary
      drained.failed = false → drained.session.hardFailure = false →
        drained.session.frameOpen = false ∧ drained.pacerPending = false := by
  intro claimed
  have kept := claimed 1 .unbound true kickedSteps {}
    { waited := ⟨0, ⟨110, 10, 1⟩⟩, begun := XrResult.frameDiscarded } (by decide) (by decide)
  exact absurd kept.1 (by decide)

end EdvrPatch.OpenXr
