import EdvrPatch.OpenXr.FrameLoop

/-! The boundary and its pacer keep the frame loop lawful, in every order of
calls, worker moves and runtime answers. -/
namespace EdvrPatch.OpenXr

open Lib

/-- The boundary against the record of the loop. A stored answer that nobody has
taken is the loop's unused wait; a worker inside its call is a wait in flight. -/
structure InLoop (s : SessionState) (pacer : Option FramePacer) (handedOut : Int)
    (m : LoopRecord) : Prop where
  waiting : m.waiting = pacer.any (·.calling)
  calling : ∀ p ∈ pacer, p.calling = true → p.pending = true ∧ p.done = false
  done : ∀ p ∈ pacer, p.done = true → p.pending = true ∧ m.unused = some p.answer.result
  live : s.Live → m.isOpen = true
  lastTime : m.lastTime = handedOut

def FrameBoundary.InLoop (b : FrameBoundary) (m : LoopRecord) : Prop :=
  OpenXr.InLoop b.session b.pacer b.lastHandedOut m

/-- The log is lawful from `m` on, and the boundary is then in the loop again. -/
def Follows (m : LoopRecord) (log : List LoopEntry) (b : FrameBoundary) : Prop :=
  loopMonitor.Admits m (frameEvents log) ∧ b.InLoop (loopMonitor.after m (frameEvents log))

variable {m : LoopRecord} {b : FrameBoundary}

theorem Follows.silent (inLoop : b.InLoop m) : Follows m [] b :=
  ⟨trivial, inLoop⟩

theorem Follows.append {first rest : List LoopEntry} {c : FrameBoundary}
    (before : Follows m first b)
    (after : b.InLoop (loopMonitor.after m (frameEvents first)) → Follows (loopMonitor.after m (frameEvents first)) rest c) :
    Follows m (first ++ rest) c := by
  obtain ⟨admitted, inLoop⟩ := before
  obtain ⟨admitted', final⟩ := after inLoop
  refine ⟨?_, ?_⟩
  · simpa using ⟨admitted, admitted'⟩
  · simpa using final

def Idle (pacer : Option FramePacer) : Prop := ∀ p ∈ pacer, p.pending = false

namespace InLoop

variable {s : SessionState} {pacer : Option FramePacer} {handedOut : Int} {m : LoopRecord}

theorem not_waiting (inLoop : InLoop s pacer handedOut m) (idle : Idle pacer) :
    m.waiting = false := by
  rw [inLoop.waiting]
  cases pacer with
  | none => rfl
  | some p =>
    by_contra calling
    have pending := (inLoop.calling p rfl (by simpa using calling)).1
    rw [idle p rfl] at pending
    cases pending

theorem rewait (inLoop : InLoop s pacer handedOut m) (idle : Idle pacer)
    (unused : Option XrResult) :
    InLoop s pacer handedOut { m with waiting := false, unused := unused } := by
  refine ⟨?_, inLoop.calling, ?_, inLoop.live, inLoop.lastTime⟩
  · rw [← inLoop.waiting]
    exact (inLoop.not_waiting idle).symm
  · intro p member done
    have pending := (inLoop.done p member done).1
    rw [idle p member] at pending
    cases pending

theorem repace (inLoop : InLoop s pacer handedOut m) (waiting : m.waiting = false)
    {p : FramePacer} (calling : p.calling = false) (done : p.done = false) :
    InLoop s (some p) handedOut m := by
  refine ⟨?_, ?_, ?_, inLoop.live, inLoop.lastTime⟩
  · simp [waiting, calling]
  · rintro q ⟨⟩ isCalling
    rw [calling] at isCalling
    cases isCalling
  · rintro q ⟨⟩ isDone
    rw [done] at isDone
    cases isDone

theorem closes (inLoop : InLoop s pacer handedOut m) {reply : Reply} (closes : Closes s reply) :
    loopMonitor.Admits m (sessionEvents reply.log) ∧
      InLoop reply.state pacer handedOut (loopMonitor.after m (sessionEvents reply.log)) := by
  cases closes with
  | quiet none kept =>
    rw [none]
    exact ⟨trivial, inLoop.waiting, inLoop.calling, inLoop.done,
      fun live => inLoop.live (kept live), inLoop.lastTime⟩
  | ended one before after =>
    rw [one]
    exact ⟨⟨inLoop.live before, trivial⟩, inLoop.waiting, inLoop.calling, inLoop.done,
      fun live => absurd live after, inLoop.lastTime⟩

theorem begins (inLoop : InLoop s pacer handedOut m) (idle : Idle pacer) {waited : XrResult}
    (unused : m.unused = some waited) {reply : Reply} (begins : Begins s waited reply) :
    loopMonitor.Admits m (sessionEvents reply.log) ∧
      InLoop reply.state pacer handedOut (loopMonitor.after m (sessionEvents reply.log)) := by
  have consumed := inLoop.rewait idle none
  rw [← inLoop.not_waiting idle] at consumed
  cases begins with
  | quiet none kept =>
    rw [none]
    exact ⟨trivial, inLoop.waiting, inLoop.calling, inLoop.done,
      fun live => inLoop.live (kept live), inLoop.lastTime⟩
  | begun successful one kept =>
    rw [one]
    exact ⟨⟨⟨waited, unused, successful⟩, trivial⟩, consumed.waiting, consumed.calling,
      consumed.done, fun live => inLoop.live (kept live), inLoop.lastTime⟩
  | opened successful two =>
    rw [two]
    exact ⟨⟨⟨waited, unused, successful⟩, trivial, trivial⟩, consumed.waiting, consumed.calling,
      consumed.done, fun _ => rfl, inLoop.lastTime⟩

end InLoop

namespace FramePacer

variable {s : SessionState} {p : FramePacer} {handedOut : Int} {m : LoopRecord}

theorem kick_inLoop {kicked : FramePacer} (inLoop : InLoop s (some p) handedOut m)
    (kick : p.kick = some kicked) : InLoop s (some kicked) handedOut m := by
  unfold FramePacer.kick at kick
  split at kick
  · cases kick
  split at kick
  · cases kick
  · rename_i idle
    have idle : Idle (some p) := by
      rintro q ⟨⟩
      simpa using idle
    cases kick
    have waiting := inLoop.not_waiting idle
    have calling : p.calling = false := by simpa [inLoop.waiting] using waiting
    exact inLoop.repace waiting calling rfl

theorem workerStarts_inLoop (inLoop : InLoop s (some p) handedOut m) :
    loopMonitor.Admits m (frameEvents p.workerStarts.2) ∧
      InLoop s (some p.workerStarts.1) handedOut
        (loopMonitor.after m (frameEvents p.workerStarts.2)) := by
  unfold workerStarts
  split
  · rename_i wakes
    obtain ⟨pending, undone, asleep⟩ := wakes
    have waiting : m.waiting = false := by simpa [inLoop.waiting] using asleep
    refine ⟨⟨waiting, trivial⟩, rfl, ?_, ?_, inLoop.live, inLoop.lastTime⟩
    · rintro q ⟨⟩ -
      exact ⟨pending, by simpa using undone⟩
    · rintro q ⟨⟩ done
      exact absurd done undone
  · exact ⟨trivial, inLoop⟩

theorem workerReturns_inLoop (inLoop : InLoop s (some p) handedOut m) (answer : WaitAnswer) :
    loopMonitor.Admits m (frameEvents (p.workerReturns answer).2) ∧
      InLoop s (some (p.workerReturns answer).1) handedOut
        (loopMonitor.after m (frameEvents (p.workerReturns answer).2)) := by
  unfold workerReturns
  split
  · rename_i calling
    have waiting : m.waiting = true := by simpa [inLoop.waiting] using calling
    refine ⟨⟨waiting, trivial⟩, rfl, ?_, ?_, inLoop.live, inLoop.lastTime⟩
    · rintro q ⟨⟩ isCalling
      cases isCalling
    · rintro q ⟨⟩ -
      exact ⟨(inLoop.calling p rfl calling).1, rfl⟩
  · exact ⟨trivial, inLoop⟩

theorem workerReturns_calling (p : FramePacer) (answer : WaitAnswer) :
    (p.workerReturns answer).1.calling = false := by
  unfold workerReturns
  split
  · rfl
  · rename_i asleep
    simpa using asleep

theorem take_inLoop (inLoop : InLoop s (some p) handedOut m) {late waited : WaitAnswer}
    {log : List LoopEntry} {idle : FramePacer} (take : p.take late = some (idle, log, waited)) :
    loopMonitor.Admits m (frameEvents log) ∧
      InLoop s (some idle) handedOut (loopMonitor.after m (frameEvents log)) ∧
      (loopMonitor.after m (frameEvents log)).unused = some waited.result ∧
      idle.pending = false := by
  unfold FramePacer.take at take
  split at take
  · cases take
  rename_i pending
  have pending : p.pending = true := by simpa using pending
  -- Either the answer is there, or the worker is now inside its call.
  obtain ⟨started, isStarted⟩ : ∃ started, started = if p.done then (p, []) else p.workerStarts :=
    ⟨_, rfl⟩
  have starts : loopMonitor.Admits m (frameEvents started.2) ∧
      InLoop s (some started.1) handedOut (loopMonitor.after m (frameEvents started.2)) ∧
      (started.1.done = true ∨ started.1.calling = true) := by
    rw [isStarted]
    split
    · rename_i done
      exact ⟨trivial, inLoop, .inl done⟩
    · rename_i undone
      obtain ⟨admitted, inLoop'⟩ := workerStarts_inLoop inLoop
      refine ⟨admitted, inLoop', .inr ?_⟩
      unfold workerStarts
      split
      · rfl
      · rename_i awake
        by_contra asleep
        exact awake ⟨pending, undone, asleep⟩
  obtain ⟨admitted, inLoop', arrived⟩ := starts
  obtain ⟨admitted', inLoop''⟩ := workerReturns_inLoop inLoop' late
  have done : (started.1.workerReturns late).1.done = true := by
    unfold workerReturns
    split
    · rfl
    · rename_i asleep
      exact arrived.resolve_right asleep
  rw [← isStarted] at take
  cases take
  rw [frameEvents_append, Monitor.admits_append, Monitor.after_append]
  have waiting : (loopMonitor.after (loopMonitor.after m (frameEvents started.2))
      (frameEvents (started.1.workerReturns late).2)).waiting = false := by
    rw [inLoop''.waiting]
    simpa using workerReturns_calling started.1 late
  refine ⟨⟨admitted, admitted'⟩, ?_, (inLoop''.done _ rfl done).2, rfl⟩
  exact inLoop''.repace waiting (workerReturns_calling started.1 late) rfl

theorem stop_inLoop (inLoop : InLoop s (some p) handedOut m) (inFlight : WaitAnswer) :
    loopMonitor.Admits m (frameEvents (p.stop inFlight).2) ∧
      InLoop s (some (p.stop inFlight).1) handedOut
        (loopMonitor.after m (frameEvents (p.stop inFlight).2)) := by
  obtain ⟨admitted, joined⟩ := workerReturns_inLoop inLoop inFlight
  refine ⟨admitted, joined.repace ?_ (workerReturns_calling p inFlight) rfl⟩
  rw [joined.waiting]
  simpa using workerReturns_calling p inFlight

theorem stop_calling (p : FramePacer) (inFlight : WaitAnswer) :
    (p.stop inFlight).1.calling = false :=
  workerReturns_calling p inFlight

theorem bind_inLoop (inLoop : InLoop s (some p) handedOut m) (bound : Bool)
    (inFlight : WaitAnswer) :
    loopMonitor.Admits m (frameEvents (p.bind bound inFlight).2) ∧
      InLoop s (some (p.bind bound inFlight).1) handedOut
        (loopMonitor.after m (frameEvents (p.bind bound inFlight).2)) := by
  obtain ⟨admitted, stopped⟩ := stop_inLoop inLoop inFlight
  refine ⟨admitted, stopped.repace ?_ (stop_calling p inFlight) rfl⟩
  rw [stopped.waiting]
  simpa using stop_calling p inFlight

end FramePacer

/-- The boundary takes over the session that a closing method left. Which of its
other fields it writes does not matter to the loop. -/
theorem Follows.closes {c : FrameBoundary} (inLoop : b.InLoop m) {reply : Reply}
    (closes : Closes b.session reply) (session : c.session = reply.state)
    (pacer : c.pacer = b.pacer) (handedOut : c.lastHandedOut = b.lastHandedOut) :
    Follows m (reply.log.map .session) c := by
  unfold Follows FrameBoundary.InLoop
  rw [frameEvents_session, session, pacer, handedOut]
  exact InLoop.closes inLoop closes

namespace FrameBoundary

variable {b : FrameBoundary} {m : LoopRecord}

theorem idle_of_not_pending (idle : b.pacerPending = false) : Idle b.pacer := by
  unfold pacerPending at idle
  intro p member
  cases pacer : b.pacer with
  | none =>
    rw [pacer] at member
    cases member
  | some q =>
    rw [pacer] at member idle
    cases member
    simpa using idle

variable {log : List LoopEntry}

theorem takeWait_follows (inLoop : b.InLoop m) {late waited : WaitAnswer} {taken : FrameBoundary}
    (take : b.takeWait late = some (taken, log, waited)) :
    Follows m log taken ∧ Idle taken.pacer ∧
      (loopMonitor.after m (frameEvents log)).unused = some waited.result := by
  unfold takeWait at take
  unfold FrameBoundary.InLoop at inLoop
  cases pacer : b.pacer with
  | none =>
    rw [pacer] at take
    cases take
  | some p =>
    rw [pacer] at take inLoop
    cases took : p.take late with
    | none =>
      rw [Option.bind_some, took] at take
      cases take
    | some answer =>
      obtain ⟨idle, log', waited'⟩ := answer
      rw [Option.bind_some, took] at take
      cases take
      obtain ⟨admitted, after, unused, notPending⟩ := FramePacer.take_inLoop inLoop took
      refine ⟨⟨admitted, after⟩, ?_, unused⟩
      rintro q ⟨⟩
      exact notPending

theorem handOut_follows (before : Follows m log b) :
    Follows m (b.handOut log).log (b.handOut log).boundary := by
  refine before.append fun inLoop => ?_
  refine ⟨⟨?_, trivial⟩, inLoop.waiting, inLoop.calling, inLoop.done, inLoop.live, rfl⟩
  change (loopMonitor.after m (frameEvents log)).lastTime ≤ b.admitFrame.lastHandedOut
  rw [inLoop.lastTime]
  unfold admitFrame
  split
  · exact Int.le_refl _
  · rename_i later
    exact Int.not_lt.mp later

theorem kick_follows (inLoop : b.InLoop m) {kicked : FramePacer}
    (kick : b.pacer.bind FramePacer.kick = some kicked) :
    ({ b with pacer := some kicked } : FrameBoundary).InLoop m := by
  unfold FrameBoundary.InLoop at inLoop ⊢
  cases pacer : b.pacer with
  | none =>
    rw [pacer] at kick
    cases kick
  | some p =>
    rw [pacer] at kick inLoop
    exact FramePacer.kick_inLoop inLoop kick

theorem begins_follows {waited : XrResult} {reply : Reply} (before : Follows m log b)
    (idle : Idle b.pacer) (unused : (loopMonitor.after m (frameEvents log)).unused = some waited)
    (begins : Begins b.session waited reply) :
    Follows m (log ++ reply.log.map .session) (b.settle reply) := by
  refine before.append fun inLoop => ?_
  unfold Follows
  rw [frameEvents_session]
  exact OpenXr.InLoop.begins inLoop idle unused begins

theorem noteReal_follows (before : Follows m log b) (waited : XrResult) (time period realAt : Int) :
    Follows m log (b.noteReal waited time period realAt) := by
  unfold noteReal
  split
  · exact before
  · exact before

theorem noteReal_pacer (b : FrameBoundary) (waited : XrResult) (time period realAt : Int) :
    (b.noteReal waited time period realAt).pacer = b.pacer := by
  unfold noteReal
  split <;> rfl

theorem completeDeferred_follows (inLoop : b.InLoop m) (answers : Answers) :
    Follows m (b.completeDeferred answers).log (b.completeDeferred answers).boundary := by
  unfold completeDeferred
  split
  · exact .silent inLoop
  rename_i taken log waited take
  obtain ⟨follows, idle, unused⟩ := takeWait_follows inLoop take
  have noted := noteReal_follows (b := { taken with deferred := false }) follows waited.result
    waited.state.predictedDisplayTime waited.state.predictedDisplayPeriod answers.realAt
  have begun := begins_follows noted (by rw [noteReal_pacer]; exact idle) unused
    (beginDeferred_begins _ waited.result waited.state answers.begun)
  dsimp only
  split
  · exact begun
  · exact begun

theorem complete_follows (inLoop : b.InLoop m) (answers : Answers) :
    Follows m (b.complete answers).log (b.complete answers).boundary := by
  unfold complete
  split
  · exact completeDeferred_follows inLoop answers
  · exact .silent inLoop

theorem endEmpty_follows (inLoop : b.InLoop m) (answers : Answers) :
    Follows m (b.endEmpty answers).log (b.endEmpty answers).boundary := by
  have closes := endFrame_closes b.session b.frame {} ⟨false, false⟩ answers.ended
  unfold endEmpty
  dsimp only
  split
  · exact Follows.closes inLoop closes rfl rfl rfl
  · exact Follows.closes inLoop closes rfl rfl rfl

theorem clear_follows (inLoop : b.InLoop m) (ownerThread : Bool) (answers : Answers) :
    Follows m (b.clear ownerThread answers).log (b.clear ownerThread answers).boundary := by
  unfold clear
  split
  · exact .silent inLoop
  split
  · exact .silent inLoop
  split
  · have begun := complete_follows inLoop answers
    dsimp only
    split
    · exact begun.append fun inLoop' => endEmpty_follows inLoop' answers
    · exact begun
  · exact .silent inLoop

theorem openSynthesized_follows (inLoop : b.InLoop m) :
    Follows m b.openSynthesized.log b.openSynthesized.boundary := by
  have opened : Follows m
      ((b.session.openDeferred b.synthesizedTime b.lastPeriod).log.map .session)
      (b.settle (b.session.openDeferred b.synthesizedTime b.lastPeriod)) := by
    unfold Follows
    rw [frameEvents_session]
    rcases openDeferred_events b.session b.synthesizedTime b.lastPeriod with
      ⟨none, kept⟩ | one
    · exact InLoop.closes inLoop (.quiet none kept)
    · rw [one]
      exact ⟨⟨trivial, trivial⟩, inLoop.waiting, inLoop.calling, inLoop.done, fun _ => rfl,
        inLoop.lastTime⟩
  unfold openSynthesized
  dsimp only
  split
  · exact opened
  · exact handOut_follows opened

theorem openTaken_follows (inLoop : b.InLoop m) (answers : Answers) :
    Follows m (b.openTaken answers).log (b.openTaken answers).boundary := by
  unfold openTaken
  split
  · exact .silent inLoop
  rename_i taken log waited take
  obtain ⟨follows, idle, unused⟩ := takeWait_follows inLoop take
  have noted := noteReal_follows follows waited.result waited.state.predictedDisplayTime
    waited.state.predictedDisplayPeriod answers.realAt
  have begun := begins_follows noted (by rw [noteReal_pacer]; exact idle) unused
    (beginWaited_begins _ waited.result waited.state answers.begun)
  dsimp only
  split
  · exact begun
  · exact handOut_follows begun

theorem openDirect_follows (inLoop : b.InLoop m) (idle : Idle b.pacer) (answers : Answers) :
    Follows m (b.openDirect answers).log (b.openDirect answers).boundary := by
  obtain ⟨reply, isReply⟩ : ∃ reply, reply = b.session.waitAndBegin answers.waited.result
    answers.waited.state answers.begun := ⟨_, rfl⟩
  have opened : Follows m (reply.log.map .session) (b.settle reply) := by
    rw [isReply]
    unfold Follows
    rw [frameEvents_session]
    rcases waitAndBegin_events b.session answers.waited.result answers.waited.state
      answers.begun with ⟨state, log⟩ | ⟨begun, begins, state, events⟩
    · rw [log]
      refine ⟨trivial, ?_⟩
      unfold FrameBoundary.InLoop settle
      rw [state]
      exact inLoop
    · have waited := OpenXr.InLoop.rewait inLoop idle (some answers.waited.result)
      obtain ⟨admitted, after⟩ := waited.begins idle rfl begins
      rw [events, Monitor.admits_append, Monitor.after_append]
      refine ⟨⟨⟨inLoop.not_waiting idle, rfl, trivial⟩, admitted⟩, ?_⟩
      unfold FrameBoundary.InLoop settle
      rw [state]
      exact after
  unfold openDirect
  rw [← isReply]
  dsimp only
  split
  · exact opened
  · exact handOut_follows (noteReal_follows opened _ _ _ _)

theorem openFrame_follows (inLoop : b.InLoop m) (answers : Answers) :
    Follows m (b.openFrame answers).log (b.openFrame answers).boundary := by
  unfold openFrame
  split
  · split
    · exact openSynthesized_follows inLoop
    · exact openTaken_follows inLoop answers
  · rename_i notPending
    have idle := idle_of_not_pending (by simpa using notPending)
    split
    · split
      · rename_i kicked kick
        exact openSynthesized_follows (kick_follows inLoop kick)
      · exact openDirect_follows inLoop idle answers
    · exact openDirect_follows inLoop idle answers

theorem waitAndBegin_follows (inLoop : b.InLoop m) (ownerThread : Bool) (pacing : FramePacing)
    (waitEntry : Int) (closing opening : Answers) :
    Follows m (b.waitAndBegin ownerThread pacing waitEntry closing opening).log
      (b.waitAndBegin ownerThread pacing waitEntry closing opening).boundary := by
  unfold waitAndBegin
  split
  · exact .silent inLoop
  split
  · exact .silent inLoop
  · have closed := clear_follows inLoop ownerThread closing
    dsimp only
    split
    · exact closed
    · refine closed.append fun inLoop' => openFrame_follows ?_ opening
      exact inLoop'

theorem Follows.after_sink {m : LoopRecord} {quiet : List LoopEntry} {b : FrameBoundary}
    (silent : frameEvents quiet = []) (follows : Follows m log b) : Follows m (quiet ++ log) b := by
  unfold Follows
  rw [frameEvents_append, silent]
  exact follows

theorem Follows.before_sink {m : LoopRecord} {quiet : List LoopEntry} {b : FrameBoundary}
    (silent : frameEvents quiet = []) (follows : Follows m log b) : Follows m (log ++ quiet) b := by
  unfold Follows
  rw [frameEvents_append, silent, List.append_nil]
  exact follows

theorem kickNext_follows (before : Follows m log b) : Follows m log b.kickNext := by
  unfold kickNext
  split
  · split
    · rename_i kicked kick
      exact ⟨before.1, kick_follows before.2 kick⟩
    · exact before
  · exact before

theorem finishBegun_follows (inLoop : b.InLoop m) (ownerThread background : Bool)
    (answers : Answers) (sink : SinkAnswers) :
    Follows m (b.finishBegun ownerThread background answers sink).log
      (b.finishBegun ownerThread background answers sink).boundary := by
  have composing (pixels : Bool) : frameEvents (if pixels then
      [.sink (if background then .composeBackground else .compose)] else []) = [] := by
    split <;> rfl
  have finished (pixels : Bool) (result : XrResult) : frameEvents (if background then []
      else [.sink (.sceneFinished pixels result)]) = [] := by
    split <;> rfl
  unfold finishBegun
  dsimp only
  split
  · refine Follows.after_sink (composing _) ?_
    split
    · exact clear_follows inLoop ownerThread answers
    · exact .silent inLoop
  split
  · refine Follows.after_sink (composing _) ?_
    exact clear_follows inLoop ownerThread answers
  · refine kickNext_follows ?_
    refine Follows.before_sink (finished _ _) ?_
    refine Follows.after_sink (composing _) ?_
    generalize ended : b.session.endFrame _ _ _ _ = reply
    have closes : Closes b.session reply := by
      rw [← ended]
      exact endFrame_closes ..
    split
    · exact Follows.closes inLoop closes rfl rfl rfl
    · exact Follows.closes inLoop closes rfl rfl rfl

theorem finish_follows (inLoop : b.InLoop m) (ownerThread background : Bool)
    (answers : Answers) (sink : SinkAnswers) :
    Follows m (b.finish ownerThread background answers sink).log
      (b.finish ownerThread background answers sink).boundary := by
  have begun := complete_follows inLoop answers
  unfold finish
  dsimp only
  split
  · exact begun
  · refine Follows.before_sink ?_ begun
    split <;> rfl
  · refine begun.append fun inLoop' => finishBegun_follows ?_ ownerThread background answers sink
    split
    · exact inLoop'
    · exact inLoop'

theorem publish_follows (inLoop : b.InLoop m) (ownerThread : Bool) (eye : EVREye)
    (captured : EVRCompositorError) :
    Follows m (b.publish ownerThread eye captured).log
      (b.publish ownerThread eye captured).boundary := by
  unfold publish
  split
  · exact .silent inLoop
  split
  · exact .silent inLoop
  split
  · exact .silent inLoop
  dsimp only
  split
  · exact .silent inLoop
  · refine Follows.silent (b := b.accept eye) ?_
    cases eye with
    | left => exact inLoop
    | right => exact inLoop
    | other code => exact inLoop

theorem submit_follows (inLoop : b.InLoop m) (ownerThread : Bool) (eye : EVREye)
    (captured : EVRCompositorError) (answers : Answers) (sink : SinkAnswers) :
    Follows m (b.submit ownerThread eye captured answers sink).log
      (b.submit ownerThread eye captured answers sink).boundary := by
  have published := publish_follows inLoop ownerThread eye captured
  unfold submit
  dsimp only
  split
  · exact published
  · exact published.append fun inLoop' =>
      finish_follows inLoop' ownerThread false answers sink

theorem background_follows (inLoop : b.InLoop m) (ownerThread : Bool) (answers : Answers)
    (sink : SinkAnswers) :
    Follows m (b.background ownerThread answers sink).log
      (b.background ownerThread answers sink).boundary := by
  unfold background
  split
  · exact .silent inLoop
  split
  · exact .silent inLoop
  split
  · exact .silent inLoop
  · exact finish_follows inLoop ownerThread true answers sink

theorem drainWait_follows (inLoop : b.InLoop m) (answers : Answers) :
    Follows m (b.drainWait answers).log (b.drainWait answers).boundary := by
  unfold drainWait
  split
  · exact .silent inLoop
  rename_i taken log waited take
  obtain ⟨follows, idle, unused⟩ := takeWait_follows inLoop take
  split
  · have noted := noteReal_follows follows waited.result waited.state.predictedDisplayTime
      waited.state.predictedDisplayPeriod answers.realAt
    have begun := begins_follows noted (by rw [noteReal_pacer]; exact idle) unused
      (beginWaited_begins _ waited.result waited.state answers.begun)
    dsimp only
    split
    · exact begun.append fun inLoop' => Follows.closes inLoop' (endFrame_closes ..) rfl rfl rfl
    · exact begun
  · exact follows

theorem drain_follows (inLoop : b.InLoop m) (ownerThread : Bool) (closing scratch : Answers) :
    Follows m (b.drain ownerThread closing scratch).log
      (b.drain ownerThread closing scratch).boundary := by
  unfold drain
  split
  · exact .silent inLoop
  split
  · exact .silent inLoop
  · have cleared := clear_follows inLoop ownerThread closing
    dsimp only
    split
    · exact cleared
    split
    · exact cleared.append fun inLoop' => drainWait_follows inLoop' scratch
    · exact cleared

theorem movePacer_follows (inLoop : b.InLoop m)
    {move : FramePacer → FramePacer × List LoopEntry}
    (moves : ∀ {p : FramePacer}, OpenXr.InLoop b.session (some p) b.lastHandedOut m →
      loopMonitor.Admits m (frameEvents (move p).2) ∧
        OpenXr.InLoop b.session (some (move p).1) b.lastHandedOut
          (loopMonitor.after m (frameEvents (move p).2))) :
    Follows m (b.movePacer move).2 (b.movePacer move).1 := by
  unfold movePacer
  split
  · exact .silent inLoop
  · rename_i p pacer
    unfold FrameBoundary.InLoop at inLoop
    rw [pacer] at inLoop
    exact moves inLoop

theorem step_follows (inLoop : b.InLoop m) (step : LoopStep) :
    Follows m (b.step step).2 (b.step step).1 := by
  cases step with
  | waitAndBegin ownerThread pacing waitEntry closing opening =>
    exact waitAndBegin_follows inLoop ownerThread pacing waitEntry closing opening
  | setGeometryReady ownerThread ready =>
    refine Follows.silent (b := b.setGeometryReady ownerThread ready) ?_
    unfold setGeometryReady
    split
    · exact inLoop
    · exact inLoop
  | publish ownerThread eye captured => exact publish_follows inLoop ownerThread eye captured
  | finishPair ownerThread answers sink =>
    exact finish_follows inLoop ownerThread false answers sink
  | submit ownerThread eye captured answers sink =>
    exact submit_follows inLoop ownerThread eye captured answers sink
  | background ownerThread answers sink =>
    exact background_follows inLoop ownerThread answers sink
  | clear ownerThread answers => exact clear_follows inLoop ownerThread answers
  | drain ownerThread closing scratch => exact drain_follows inLoop ownerThread closing scratch
  | workerStarts => exact movePacer_follows inLoop FramePacer.workerStarts_inLoop
  | workerReturns answer =>
    exact movePacer_follows inLoop fun paced => FramePacer.workerReturns_inLoop paced answer
  | bindPacer bound inFlight =>
    exact movePacer_follows inLoop fun paced => FramePacer.bind_inLoop paced bound inFlight
  | stopPacer inFlight =>
    exact movePacer_follows inLoop fun paced => FramePacer.stop_inLoop paced inFlight
  | host method => exact Follows.closes inLoop (host_closes b.session method) rfl rfl rfl

end FrameBoundary

theorem loopMachine_keeps :
    loopMachine.Keeps (loopMonitor.viewed LoopEntry.frameEvents) FrameBoundary.InLoop := by
  intro b m step inLoop
  rw [Monitor.viewed_admits, Monitor.viewed_after]
  exact FrameBoundary.step_follows inLoop step

theorem FrameBoundary.construct_inLoop (owner : UInt64) (built : Construction) (paced : Bool) :
    (FrameBoundary.construct owner built paced).InLoop {} := by
  have closed : (built.construct owner).state.frameOpen = false := by
    cases built with
    | unbound => rfl
    | bound d instanceHandle session blend =>
      unfold Construction.construct SessionState.bound SessionState.reset
      dsimp only
      split <;> split <;> (try split) <;> (try split) <;> (try split) <;> rfl
  refine ⟨?_, ?_, ?_, fun live => absurd live (not_live_of_closed closed), rfl⟩
  · cases paced <;> rfl
  · cases paced
    · nofun
    · rintro p ⟨⟩ calling
      cases calling
  · cases paced
    · nofun
    · rintro p ⟨⟩ done
      cases done

variable {events : List FrameEvent}

end EdvrPatch.OpenXr
