import EdvrPatch.OpenXr.FrameBoundary

/-! The frame loop that the boundary and its pacer drive, read off their common
log: which waits are out, which completed wait has not been used, whether a frame
is open, and the last time handed out. -/
namespace EdvrPatch.OpenXr

open Lib

/-- What an observer of the frame loop sees. A wait of the owner's own is called
and returns in one entry of the log, a wait of the worker in two. -/
inductive FrameEvent where
  | waitCalled
  | waitReturned (result : XrResult)
  | begun
  | opened
  | ended
  | admitted (predictedDisplayTime : Int)
  deriving DecidableEq, Repr

def Entry.frameEvents : Entry → List FrameEvent
  | .call (.waitFrame answer) => [.waitCalled, .waitReturned answer]
  | .call (.beginFrame _) => [.begun]
  | .call (.endFrame _ _) => [.ended]
  | .opened _ _ => [.opened]
  | _ => []

def LoopEntry.frameEvents : LoopEntry → List FrameEvent
  | .session entry => entry.frameEvents
  | .sink _ => []
  | .waitStarted => [.waitCalled]
  | .waitReturned answer => [.waitReturned answer.result]
  | .admitted time => [.admitted time]

def sessionEvents (log : List Entry) : List FrameEvent :=
  log.flatMap Entry.frameEvents

def frameEvents (log : List LoopEntry) : List FrameEvent :=
  log.flatMap LoopEntry.frameEvents

@[simp] theorem frameEvents_append (first rest : List LoopEntry) :
    frameEvents (first ++ rest) = frameEvents first ++ frameEvents rest :=
  List.flatMap_append

@[simp] theorem frameEvents_session (log : List Entry) :
    frameEvents (log.map .session) = sessionEvents log := by
  simp [frameEvents, sessionEvents, List.flatMap_map, LoopEntry.frameEvents]

@[simp] theorem sessionEvents_append (first rest : List Entry) :
    sessionEvents (first ++ rest) = sessionEvents first ++ sessionEvents rest :=
  List.flatMap_append

def SuccessfulWait (result : XrResult) : Prop :=
  result = XrResult.success ∨ result = XrResult.sessionLossPending

/-- `unused` is the last wait that returned, until a begin consumes it. -/
structure LoopRecord where
  waiting : Bool := false
  unused : Option XrResult := none
  isOpen : Bool := false
  lastTime : Int := 0

namespace LoopRecord

def advance (m : LoopRecord) : FrameEvent → LoopRecord
  | .waitCalled => { m with waiting := true }
  | .waitReturned result => { m with waiting := false, unused := some result }
  | .begun => { m with unused := none }
  | .opened => { m with isOpen := true }
  | .ended => { m with isOpen := false }
  | .admitted time => { m with lastTime := time }

def allows (m : LoopRecord) : FrameEvent → Prop
  | .waitCalled => m.waiting = false
  | .waitReturned _ => m.waiting = true
  | .begun => ∃ result, m.unused = some result ∧ SuccessfulWait result
  | .opened => True
  | .ended => m.isOpen = true
  | .admitted time => m.lastTime ≤ time

end LoopRecord

def loopMonitor : Monitor LoopRecord FrameEvent where
  advance := LoopRecord.advance
  allows := LoopRecord.allows

namespace SessionState

/-- A frame is open and `end` can still reach the runtime with it. -/
def Live (s : SessionState) : Prop := s.frameOpen = true ∧ s.hardFailure = false

end SessionState

/-- A method of the session that begins nothing: silent for the frame loop, or
the end of the live frame. -/
inductive Closes (s : SessionState) (reply : Reply) : Prop where
  | quiet : sessionEvents reply.log = [] → (reply.state.Live → s.Live) → Closes s reply
  | ended : sessionEvents reply.log = [.ended] → s.Live → ¬reply.state.Live → Closes s reply

/-- A method of the session that begins a frame on the answer of a wait, if it
begins one at all. -/
inductive Begins (s : SessionState) (waited : XrResult) (reply : Reply) : Prop where
  | quiet : sessionEvents reply.log = [] → (reply.state.Live → s.Live) → Begins s waited reply
  | begun : SuccessfulWait waited → sessionEvents reply.log = [.begun] →
      (reply.state.Live → s.Live) → Begins s waited reply
  | opened : SuccessfulWait waited → sessionEvents reply.log = [.begun, .opened] →
      Begins s waited reply

variable (s : SessionState)

theorem Closes.silent (result : XrResult) (frame : Option Frame) :
    Closes s { state := s, result := result, frame := frame } :=
  .quiet rfl id

theorem not_live_of_failed {s : SessionState} (hard : s.hardFailure = true) : ¬s.Live := by
  rintro ⟨-, unfailed⟩
  rw [hard] at unfailed
  cases unfailed

theorem live_of_failed {s : SessionState} {P : Prop} (hard : s.hardFailure = true) (live : s.Live) : P :=
  absurd live (not_live_of_failed hard)

theorem not_live_of_closed {s : SessionState} (closed : s.frameOpen = false) : ¬s.Live := by
  rintro ⟨isOpen, -⟩
  rw [closed] at isOpen
  cases isOpen

theorem Closes.fail (t : SessionState) (r : XrResult) : Closes s (t.fail r) :=
  .quiet rfl (live_of_failed rfl)

theorem Closes.following {s t : SessionState} {reply : Reply} {log : List Entry}
    (closes : Closes t reply) (silent : sessionEvents log = []) (live : t.Live → s.Live) :
    Closes s (reply.following log) := by
  have events : sessionEvents (reply.following log).log = sessionEvents reply.log := by
    simp [silent]
  cases closes with
  | quiet none kept => exact .quiet (events.trans none) fun after => live (kept after)
  | ended one before after => exact .ended (events.trans one) (live before) after

theorem finish_closes {s : SessionState} (live : s.Live) (supplied : XrFrameEndInfo)
    (layers : Bool) (answer : XrResult) : Closes s (s.finish supplied layers answer) := by
  unfold SessionState.finish
  split
  · exact .ended rfl live (not_live_of_failed rfl)
  split
  · exact .ended rfl live (not_live_of_failed rfl)
  · exact .ended rfl live (not_live_of_closed rfl)

theorem endFrame_closes (frame : Frame) (supplied : XrFrameEndInfo) (ready : RenderReady)
    (answer : XrResult) : Closes s (s.endFrame frame supplied ready answer) := by
  unfold SessionState.endFrame
  split
  · exact .silent s _ _
  split
  · exact .silent s _ _
  split
  · exact .silent s _ _
  rename_i unfailed fresh _
  have isOpen : s.frameOpen = true := by
    by_contra h
    exact fresh (.inl h)
  dsimp only
  split
  · exact .silent s _ _
  · cases finish_closes ⟨isOpen, by simpa using unfailed⟩ supplied
      (s.frameShouldRender && !s.terminal && s.state != .stopping && ready.poseValid &&
        ready.renderReady) answer with
    | quiet none kept => exact .quiet none kept
    | ended one before after => exact .ended one before after

theorem endSession_closes (answer : XrResult) :
    sessionEvents (s.endSession answer).log = [] ∧ ¬(s.endSession answer).state.Live := by
  unfold SessionState.endSession
  dsimp only
  split
  · exact ⟨rfl, not_live_of_failed rfl⟩
  split
  · exact ⟨rfl, not_live_of_failed rfl⟩
  · refine ⟨rfl, not_live_of_closed ?_⟩
    split <;> rfl

theorem stop_closes (frameAnswer sessionAnswer : XrResult) :
    Closes s (s.stop frameAnswer sessionAnswer) := by
  unfold SessionState.stop
  split
  · exact .silent s _ _
  split
  · exact .silent s _ _
  split
  · exact .silent s _ _
  rename_i unfailed _ _
  split
  · rename_i isOpen
    have closes := finish_closes ⟨isOpen, by simpa using unfailed⟩ {} false frameAnswer
    dsimp only
    split
    · exact closes
    · obtain ⟨none, dead⟩ := endSession_closes (s.finish {} false frameAnswer).state sessionAnswer
      cases closes with
      | quiet quiet kept =>
        exact .quiet (by simp [quiet, none]) fun live => absurd live dead
      | ended one before _ =>
        exact .ended (by simp [one, none]) before dead
  · obtain ⟨none, dead⟩ := endSession_closes s sessionAnswer
    exact .quiet none fun live => absurd live dead

theorem sessionEvents_unhandled (event : XrEvent) (answer : PollAnswer) :
    sessionEvents ([Entry.call (.pollEvent answer)] ++ s.unhandled event) = [] := by
  unfold SessionState.unhandled
  split <;> rfl

theorem pollLoop_closes (answers : Nat → PollAnswer) (i budget : Nat) :
    Closes s (s.pollLoop answers i budget) := by
  induction budget generalizing s i with
  | zero => exact .silent s _ _
  | succ budget ih =>
    unfold SessionState.pollLoop
    dsimp only
    split
    · exact .quiet rfl id
    split
    · exact (Closes.fail s s _).following rfl id
    split
    · exact .quiet rfl id
    · exact (ih s _).following (sessionEvents_unhandled ..) id
    split
    · exact (ih s _).following (sessionEvents_unhandled ..) id
    split
    · exact (ih _ _).following rfl id
    · exact (ih _ _).following rfl id
    · exact (ih _ _).following rfl id
    · exact (ih _ _).following rfl id
    · exact .quiet rfl id
    · exact .quiet rfl id
    · exact .quiet rfl id
    · exact .quiet rfl id
    · exact (Closes.fail s _ _).following rfl id
    · exact (Closes.fail s _ _).following rfl id

theorem pollEvents_closes (budget : Nat) (answers : Nat → PollAnswer) :
    Closes s (s.pollEvents budget answers) := by
  unfold SessionState.pollEvents
  split
  · exact .silent s _ _
  split
  · exact .fail s s _
  split
  · exact .fail s s _
  split
  · exact .silent s _ _
  · exact pollLoop_closes s answers 0 _

theorem startIfReady_closes (answer : XrResult) : Closes s (s.startIfReady answer) := by
  unfold SessionState.startIfReady
  split
  · exact .silent s _ _
  split
  · exact .silent s _ _
  split
  · exact (Closes.fail s s _).following rfl id
  split
  · exact (Closes.fail s s _).following rfl id
  · exact .quiet rfl fun live => absurd live (not_live_of_closed rfl)

theorem reset_closes (d : Dispatch) (instanceHandle session : Nat) (blend : BlendMode) :
    Closes s (s.reset d instanceHandle session blend) := by
  unfold SessionState.reset
  split
  · exact .silent s _ _
  split
  · exact .silent s _ _
  split
  · exact .silent s _ _
  split
  · exact .silent s _ _
  · exact .quiet rfl fun live => absurd live (not_live_of_closed rfl)

theorem host_closes (method : HostMethod) : Closes s (s.call method.method) := by
  cases method with
  | reset d instanceHandle session blend => exact reset_closes s d instanceHandle session blend
  | abandonAfterOwnerDestruction =>
    exact .quiet rfl fun live => absurd live (not_live_of_closed rfl)
  | setUnhandledEventSink sink => exact .quiet rfl id
  | pollEvents budget answers => exact pollEvents_closes s budget answers
  | startIfReady answer => exact startIfReady_closes s answer
  | stop frameAnswer sessionAnswer => exact stop_closes s frameAnswer sessionAnswer

theorem successfulWait_of_expected {waited : XrResult}
    (expected : ¬(waited ≠ XrResult.success ∧ waited ≠ XrResult.sessionLossPending)) :
    SuccessfulWait waited := by
  by_contra odd
  exact expected ⟨fun same => odd (.inl same), fun same => odd (.inr same)⟩

variable (waited : XrResult)

theorem beginFromWait_begins (fs : XrFrameState) (answer : XrResult) :
    Begins s waited (s.beginFromWait waited fs answer) := by
  unfold SessionState.beginFromWait
  split
  · exact .quiet rfl (live_of_failed rfl)
  split
  · exact .quiet rfl (live_of_failed rfl)
  rename_i expected
  have successful := successfulWait_of_expected expected
  split
  · exact .begun successful rfl (live_of_failed rfl)
  split
  · exact .begun successful rfl (live_of_failed rfl)
  · exact .opened successful rfl

theorem beginWaited_begins (fs : XrFrameState) (answer : XrResult) :
    Begins s waited (s.beginWaited waited fs answer) := by
  unfold SessionState.beginWaited
  split
  · exact .quiet rfl id
  split
  · exact .quiet rfl id
  · exact beginFromWait_begins s waited fs answer

theorem beginDeferred_begins (fs : XrFrameState) (answer : XrResult) :
    Begins s waited (s.beginDeferred waited fs answer) := by
  unfold SessionState.beginDeferred
  split
  · exact .quiet rfl id
  split
  · exact .quiet rfl id
  split
  · exact .quiet rfl (live_of_failed rfl)
  split
  · exact .quiet rfl (live_of_failed rfl)
  rename_i expected
  have successful := successfulWait_of_expected expected
  split
  · exact .begun successful rfl (live_of_failed rfl)
  split
  · exact .begun successful rfl (live_of_failed rfl)
  · exact .begun successful rfl id

theorem openDeferred_events (time period : Int) :
    sessionEvents (s.openDeferred time period).log = [] ∧
        ((s.openDeferred time period).state.Live → s.Live) ∨
      sessionEvents (s.openDeferred time period).log = [.opened] := by
  unfold SessionState.openDeferred
  split
  · exact .inl ⟨rfl, id⟩
  split
  · exact .inl ⟨rfl, id⟩
  · exact .inr rfl

theorem waitAndBegin_events (fs : XrFrameState) (answer : XrResult) :
    (s.waitAndBegin waited fs answer).state = s ∧ (s.waitAndBegin waited fs answer).log = [] ∨
      ∃ reply, Begins s waited reply ∧
        (s.waitAndBegin waited fs answer).state = reply.state ∧
        sessionEvents (s.waitAndBegin waited fs answer).log =
          [FrameEvent.waitCalled, .waitReturned waited] ++ sessionEvents reply.log := by
  unfold SessionState.waitAndBegin
  split
  · exact .inl ⟨rfl, rfl⟩
  split
  · exact .inl ⟨rfl, rfl⟩
  · exact .inr ⟨_, beginFromWait_begins s waited fs answer, rfl, rfl⟩

end EdvrPatch.OpenXr
