import EdvrPatch.OpenXr.SessionProtocol

/-! Frame tokens over the life of one object. A token is the triple of owner,
generation and sequence; the counters are 64 bits wide, so the triples repeat
once a counter has gone all the way round. -/
namespace EdvrPatch.OpenXr

open Lib

def Entry.openedToken : Entry → Option Token
  | .opened token _ => some token
  | _ => none

def openedTokens (log : List Entry) : List Token :=
  log.filterMap Entry.openedToken

@[simp] theorem openedTokens_append (first rest : List Entry) :
    openedTokens (first ++ rest) = openedTokens first ++ openedTokens rest :=
  List.filterMap_append ..

def Frame.isOpened (f : Frame) : Bool :=
  f.status != .none && f.status != .failed

/-- The frame a call opens for its caller: the methods that open one write the
caller's frame and say in its status how they fared. -/
def SessionState.handed (s : SessionState) (method : Method) : Option Frame :=
  match method with
  | .waitAndBegin .. | .beginWaited .. | .openDeferred .. =>
    (s.call method).frame.filter Frame.isOpened
  | _ => none

def SessionState.handedOut (s : SessionState) : List Method → List Frame
  | [] => []
  | method :: rest => (s.handed method).toList ++ handedOut (s.call method).state rest

/-- A method that leaves the counters alone and opens no frame. -/
structure Kept (s : SessionState) (reply : Reply) : Prop where
  owner : reply.state.owner = s.owner
  generation : reply.state.generation = s.generation
  sequence : reply.state.sequence = s.sequence
  tokens : openedTokens reply.log = []

/-- All that one method can do to the counters: leave them, start a generation,
or take the next sequence number for the one frame it opens. -/
inductive Counted (s : SessionState) (reply : Reply) : Prop where
  | kept : Kept s reply → Counted s reply
  | renewed : reply.state.owner = s.owner → reply.state.generation = s.generation + 1 →
      reply.state.sequence = 0 → openedTokens reply.log = [] → Counted s reply
  | opened : reply.state.owner = s.owner → reply.state.generation = s.generation →
      reply.state.sequence = s.sequence + 1 →
      openedTokens reply.log = [reply.state.token] → Counted s reply

theorem Kept.silent (s : SessionState) (result : XrResult) (frame : Option Frame) :
    Kept s { state := s, result := result, frame := frame } :=
  ⟨rfl, rfl, rfl, rfl⟩

variable {s : SessionState} {log : List Entry}

theorem Kept.following {t : SessionState} {reply : Reply} (kept : Kept t reply)
    (silent : openedTokens log = []) (owner : t.owner = s.owner)
    (generation : t.generation = s.generation) (sequence : t.sequence = s.sequence) :
    Kept s (reply.following log) := by
  refine ⟨kept.owner.trans owner, kept.generation.trans generation,
    kept.sequence.trans sequence, ?_⟩
  simp [silent, kept.tokens]

theorem Kept.fail (s : SessionState) (r : XrResult) : Kept s (s.fail r) :=
  ⟨rfl, rfl, rfl, rfl⟩

theorem Kept.finish (s : SessionState) (supplied : XrFrameEndInfo) (layers : Bool)
    (answer : XrResult) : Kept s (s.finish supplied layers answer) := by
  refine Kept.following (t := s.clearFrame) ?_ rfl rfl rfl rfl
  split
  · exact .fail _ _
  split
  · exact .fail _ _
  · exact ⟨rfl, rfl, rfl, rfl⟩

theorem Kept.endSession (s : SessionState) (answer : XrResult) :
    Kept s (s.endSession answer) := by
  unfold SessionState.endSession
  dsimp only
  split
  · exact ⟨rfl, rfl, rfl, rfl⟩
  split
  · exact ⟨rfl, rfl, rfl, rfl⟩
  · split <;> exact ⟨rfl, rfl, rfl, rfl⟩

theorem Kept.stop (s : SessionState) (frameAnswer sessionAnswer : XrResult) :
    Kept s (s.stop frameAnswer sessionAnswer) := by
  unfold SessionState.stop
  split
  · exact .silent s _ _
  split
  · exact .silent s _ _
  split
  · exact .silent s _ _
  split
  · have closed := Kept.finish s {} false frameAnswer
    dsimp only
    split
    · exact closed
    · exact .following (.endSession _ sessionAnswer) closed.tokens closed.owner
        closed.generation closed.sequence
  · exact .endSession s sessionAnswer

theorem Kept.endFrame (s : SessionState) (frame : Frame) (supplied : XrFrameEndInfo)
    (ready : RenderReady) (answer : XrResult) :
    Kept s (s.endFrame frame supplied ready answer) := by
  unfold SessionState.endFrame
  split
  · exact .silent s _ _
  split
  · exact .silent s _ _
  split
  · exact .silent s _ _
  dsimp only
  split
  · exact .silent s _ _
  · obtain ⟨owner, generation, sequence, tokens⟩ := Kept.finish s supplied
      (s.frameShouldRender && !s.terminal && s.state != .stopping && ready.poseValid &&
        ready.renderReady) answer
    exact ⟨owner, generation, sequence, tokens⟩

theorem Kept.beginDeferred (s : SessionState) (waited : XrResult) (fs : XrFrameState)
    (answer : XrResult) : Kept s (s.beginDeferred waited fs answer) := by
  unfold SessionState.beginDeferred
  split
  · exact .silent s _ _
  split
  · exact .silent s _ _
  split
  · exact ⟨rfl, rfl, rfl, rfl⟩
  split
  · exact ⟨rfl, rfl, rfl, rfl⟩
  split
  · exact ⟨rfl, rfl, rfl, rfl⟩
  split
  · exact ⟨rfl, rfl, rfl, rfl⟩
  · exact ⟨rfl, rfl, rfl, rfl⟩

theorem openedTokens_unhandled (s : SessionState) (event : XrEvent) (answer : PollAnswer) :
    openedTokens ([Entry.call (.pollEvent answer)] ++ s.unhandled event) = [] := by
  unfold SessionState.unhandled
  split <;> rfl

theorem Kept.pollLoop (s : SessionState) (answers : Nat → PollAnswer) (i budget : Nat) :
    Kept s (s.pollLoop answers i budget) := by
  induction budget generalizing s i with
  | zero => exact .silent s _ _
  | succ budget ih =>
    unfold SessionState.pollLoop
    dsimp only
    split
    · exact ⟨rfl, rfl, rfl, rfl⟩
    split
    · exact ⟨rfl, rfl, rfl, rfl⟩
    split
    · exact ⟨rfl, rfl, rfl, rfl⟩
    · exact .following (ih s _) (openedTokens_unhandled ..) rfl rfl rfl
    split
    · exact .following (ih s _) (openedTokens_unhandled ..) rfl rfl rfl
    split
    · exact .following (ih _ _) rfl rfl rfl rfl
    · exact .following (ih _ _) rfl rfl rfl rfl
    · exact .following (ih _ _) rfl rfl rfl rfl
    · exact .following (ih _ _) rfl rfl rfl rfl
    all_goals exact ⟨rfl, rfl, rfl, rfl⟩

theorem Kept.pollEvents (s : SessionState) (budget : Nat) (answers : Nat → PollAnswer) :
    Kept s (s.pollEvents budget answers) := by
  unfold SessionState.pollEvents
  split
  · exact .silent s _ _
  split
  · exact .fail s _
  split
  · exact .fail s _
  split
  · exact .silent s _ _
  · exact .pollLoop s answers 0 _

theorem Counted.startIfReady (s : SessionState) (answer : XrResult) :
    Counted s (s.startIfReady answer) := by
  unfold SessionState.startIfReady
  split
  · exact .kept (.silent s _ _)
  split
  · exact .kept (.silent s _ _)
  split
  · exact .kept ⟨rfl, rfl, rfl, rfl⟩
  split
  · exact .kept ⟨rfl, rfl, rfl, rfl⟩
  · exact .renewed rfl rfl rfl rfl

theorem Counted.reset (s : SessionState) (d : Dispatch) (instanceHandle session : Nat)
    (blend : BlendMode) : Counted s (s.reset d instanceHandle session blend) := by
  unfold SessionState.reset
  split
  · exact .kept (.silent s _ _)
  split
  · exact .kept (.silent s _ _)
  split
  · exact .kept (.silent s _ _)
  split
  · exact .kept (.silent s _ _)
  · exact .renewed rfl rfl rfl rfl

theorem Counted.beginFromWait (s : SessionState) (waited : XrResult) (fs : XrFrameState)
    (answer : XrResult) : Counted s (s.beginFromWait waited fs answer) := by
  unfold SessionState.beginFromWait
  split
  · exact .kept ⟨rfl, rfl, rfl, rfl⟩
  split
  · exact .kept ⟨rfl, rfl, rfl, rfl⟩
  split
  · exact .kept ⟨rfl, rfl, rfl, rfl⟩
  split
  · exact .kept ⟨rfl, rfl, rfl, rfl⟩
  · exact .opened rfl rfl rfl rfl

theorem Counted.waitAndBegin (s : SessionState) (waited : XrResult) (fs : XrFrameState)
    (answer : XrResult) : Counted s (s.waitAndBegin waited fs answer) := by
  unfold SessionState.waitAndBegin
  split
  · exact .kept (.silent s _ _)
  split
  · exact .kept (.silent s _ _)
  · cases Counted.beginFromWait s waited fs answer with
    | kept kept => exact .kept (.following kept rfl rfl rfl rfl)
    | renewed owner generation sequence tokens =>
      exact .renewed owner generation sequence tokens
    | opened owner generation sequence tokens =>
      exact .opened owner generation sequence tokens

theorem Counted.beginWaited (s : SessionState) (waited : XrResult) (fs : XrFrameState)
    (answer : XrResult) : Counted s (s.beginWaited waited fs answer) := by
  unfold SessionState.beginWaited
  split
  · exact .kept (.silent s _ _)
  split
  · exact .kept (.silent s _ _)
  · exact .beginFromWait s waited fs answer

theorem Counted.openDeferred (s : SessionState) (predictedTime period : Int) :
    Counted s (s.openDeferred predictedTime period) := by
  unfold SessionState.openDeferred
  split
  · exact .kept (.silent s _ _)
  split
  · exact .kept (.silent s _ _)
  · exact .opened rfl rfl rfl rfl

theorem Counted.call (s : SessionState) (method : Method) : Counted s (s.call method) := by
  cases method with
  | reset d instanceHandle session blend => exact .reset s d instanceHandle session blend
  | abandonAfterOwnerDestruction => exact .renewed rfl rfl rfl rfl
  | setUnhandledEventSink sink => exact .kept ⟨rfl, rfl, rfl, rfl⟩
  | pollEvents budget answers => exact .kept (.pollEvents s budget answers)
  | startIfReady answer => exact .startIfReady s answer
  | waitAndBegin waited fs answer => exact .waitAndBegin s waited fs answer
  | beginWaited waited fs answer => exact .beginWaited s waited fs answer
  | openDeferred time period => exact .openDeferred s time period
  | beginDeferred waited fs answer => exact .kept (.beginDeferred s waited fs answer)
  | endFrame frame supplied ready answer => exact .kept (.endFrame s frame supplied ready answer)
  | stop frameAnswer sessionAnswer => exact .kept (.stop s frameAnswer sessionAnswer)

theorem beginFromWait_hands (s : SessionState) (waited : XrResult) (fs : XrFrameState)
    (answer : XrResult) : openedTokens (s.beginFromWait waited fs answer).log =
      ((s.beginFromWait waited fs answer).frame.filter Frame.isOpened).toList.map (·.token) := by
  unfold SessionState.beginFromWait
  split
  · rfl
  split
  · rfl
  split
  · rfl
  split
  · rfl
  · simp only [Reply.following, Option.filter_some]
    rw [if_pos]
    · rfl
    · simp only [Frame.isOpened]
      split
      · rfl
      split
      · rfl
      · split <;> rfl

/-- A call hands out a frame exactly where it leaves an opening in the log, and the
frame carries that token. -/
theorem call_hands (s : SessionState) (method : Method) :
    openedTokens (s.call method).log = (s.handed method).toList.map (·.token) := by
  cases method with
  | reset d instanceHandle session blend =>
    show openedTokens (s.reset d instanceHandle session blend).log = []
    unfold SessionState.reset
    repeat' split
    all_goals rfl
  | abandonAfterOwnerDestruction => rfl
  | setUnhandledEventSink sink => rfl
  | pollEvents budget answers => exact (Kept.pollEvents s budget answers).tokens
  | startIfReady answer =>
    show openedTokens (s.startIfReady answer).log = []
    unfold SessionState.startIfReady
    repeat' split
    all_goals rfl
  | beginDeferred waited fs answer => exact (Kept.beginDeferred s waited fs answer).tokens
  | endFrame frame supplied ready answer => exact (Kept.endFrame s frame supplied ready answer).tokens
  | stop frameAnswer sessionAnswer => exact (Kept.stop s frameAnswer sessionAnswer).tokens
  | waitAndBegin waited fs answer =>
    simp only [SessionState.handed, SessionState.call, SessionState.waitAndBegin]
    split
    · rfl
    split
    · rfl
    · exact beginFromWait_hands s waited fs answer
  | beginWaited waited fs answer =>
    simp only [SessionState.handed, SessionState.call, SessionState.beginWaited]
    split
    · rfl
    split
    · rfl
    · exact beginFromWait_hands s waited fs answer
  | openDeferred time period =>
    simp only [SessionState.handed, SessionState.call, SessionState.openDeferred]
    split
    · rfl
    split
    · rfl
    · simp only [Option.filter_some]
      rw [if_pos]
      · rfl
      · simp only [Frame.isOpened]
        split <;> rfl

theorem run_hands (s : SessionState) (methods : List Method) :
    openedTokens (sessionMachine.run s methods).2 = (s.handedOut methods).map (·.token) := by
  induction methods generalizing s with
  | nil => rfl
  | cons method rest ih =>
    rw [Machine.run_cons, openedTokens_append, ih, SessionState.handedOut, List.map_append,
      ← call_hands]
    rfl

theorem construct_hands (owner : UInt64) (built : Construction) :
    openedTokens (built.construct owner).log = [] := by
  cases built with
  | unbound => rfl
  | bound d instanceHandle session blend =>
    have silent : openedTokens
        ((SessionState.unbound owner).reset d instanceHandle session blend).log = [] :=
      call_hands (SessionState.unbound owner) (.reset d instanceHandle session blend)
    unfold Construction.construct SessionState.bound
    dsimp only
    split
    · rw [Reply.following_log, openedTokens_append, silent]
      rfl
    · exact silent

theorem openToken_last (log : List Entry) {token : Token}
    (opened : (sessionMonitor.after {} log).openToken = some token) :
    (openedTokens log).getLast? = some token := by
  induction log using List.reverseRecOn with
  | nil => cases opened
  | append_singleton log e ih =>
    rw [Monitor.after_append, Monitor.after_cons, Monitor.after_nil] at opened
    generalize sessionMonitor.after {} log = p at opened ih
    rw [openedTokens_append]
    cases e with
    | call c =>
      rw [show openedTokens [.call c] = [] from rfl, List.append_nil]
      refine ih ?_
      change (p.answered c).openToken = some token at opened
      exact Protocol.answered_openToken opened
    | opened token' deferred =>
      cases opened
      exact List.getLast?_concat
    | abandoned => cases opened
    | unhandled event =>
      rw [show openedTokens [.unhandled event] = [] from rfl, List.append_nil]
      exact ih opened
    | failed result =>
      rw [show openedTokens [.failed result] = [] from rfl, List.append_nil]
      exact ih opened
    | rebound session =>
      rw [show openedTokens [.rebound session] = [] from rfl, List.append_nil]
      exact ih opened

/-- After at most `n` methods no counter has gone round, and every token handed
out lies at or below the counters in the order of generations, then sequences. -/
structure Numbered (n : Nat) (s : SessionState) (log : List Entry) : Prop where
  generation : s.generation.toNat ≤ n
  sequence : s.sequence.toNat ≤ n
  below : ∀ token ∈ openedTokens log, token.generation.toNat < s.generation.toNat ∨
    token.generation = s.generation ∧ token.sequence.toNat ≤ s.sequence.toNat
  nodup : (openedTokens log).Nodup

theorem toNat_add_one {x : UInt64} (bound : x.toNat + 1 < 2 ^ 64) :
    (x + 1).toNat = x.toNat + 1 := by
  exact Nat.mod_eq_of_lt bound

theorem Numbered.step {n : Nat} {reply : Reply} (numbered : Numbered n s log)
    (bound : n + 1 < 2 ^ 64) (counted : Counted s reply) :
    Numbered (n + 1) reply.state (log ++ reply.log) := by
  obtain ⟨generation, sequence, below, nodup⟩ := numbered
  cases counted with
  | kept kept =>
    have tokens : openedTokens (log ++ reply.log) = openedTokens log := by simp [kept.tokens]
    refine ⟨?_, ?_, ?_, ?_⟩
    · rw [kept.generation]
      omega
    · rw [kept.sequence]
      omega
    · rw [tokens, kept.generation, kept.sequence]
      exact below
    · rw [tokens]
      exact nodup
  | renewed _ generation' sequence' tokens =>
    have tokens : openedTokens (log ++ reply.log) = openedTokens log := by simp [tokens]
    have next := toNat_add_one (x := s.generation) (by omega)
    refine ⟨?_, ?_, ?_, ?_⟩
    · rw [generation', next]
      omega
    · simp [sequence']
    · intro token member
      rw [tokens] at member
      left
      rw [generation', next]
      rcases below token member with earlier | ⟨same, -⟩
      · omega
      · rw [same]
        omega
    · rw [tokens]
      exact nodup
  | opened _ generation' sequence' tokens =>
    have tokens : openedTokens (log ++ reply.log) = openedTokens log ++ [reply.state.token] := by
      simp [tokens]
    have next := toNat_add_one (x := s.sequence) (by omega)
    refine ⟨?_, ?_, ?_, ?_⟩
    · rw [generation']
      omega
    · rw [sequence', next]
      omega
    · intro token member
      rw [tokens] at member
      rcases List.mem_append.mp member with old | new
      · rw [generation', sequence', next]
        rcases below token old with earlier | ⟨same, le⟩
        · exact .inl earlier
        · exact .inr ⟨same, by omega⟩
      · obtain rfl := List.mem_singleton.mp new
        exact .inr ⟨rfl, Nat.le_refl _⟩
    · rw [tokens]
      refine List.nodup_append.mpr ⟨nodup, List.nodup_singleton _, ?_⟩
      rintro token old _ new rfl
      obtain rfl := List.mem_singleton.mp new
      rcases below _ old with earlier | ⟨-, le⟩
      · exact absurd earlier (by simp [SessionState.token, generation'])
      · simp only [SessionState.token, sequence', next] at le
        omega

theorem Numbered.run {n : Nat} (numbered : Numbered n s log) (methods : List Method)
    (bound : n + methods.length < 2 ^ 64) :
    Numbered (n + methods.length) (sessionMachine.run s methods).1
      (log ++ (sessionMachine.run s methods).2) := by
  induction methods generalizing n s log with
  | nil => simpa using numbered
  | cons method rest ih =>
    have length : n + (method :: rest).length = n + 1 + rest.length := by
      simp only [List.length_cons]
      omega
    have first := numbered.step (by omega) (Counted.call s method)
    have later := ih first (by omega)
    rw [length, Machine.run_cons]
    rw [List.append_assoc] at later
    exact later

theorem Numbered.construct (owner : UInt64) (built : Construction) :
    Numbered 1 (built.construct owner).state (built.construct owner).log := by
  have fresh : Numbered 0 (SessionState.unbound owner) [] :=
    ⟨Nat.le_refl _, Nat.le_refl _, nofun, List.nodup_nil⟩
  cases built with
  | unbound => exact fresh.step (by decide) (.kept (.silent _ XrResult.success none))
  | bound d instanceHandle session blend =>
    have reset := fresh.step (by decide)
      (Counted.reset (SessionState.unbound owner) d instanceHandle session blend)
    unfold Construction.construct SessionState.bound
    dsimp only
    split
    · obtain ⟨generation, sequence, below, nodup⟩ := reset
      have tokens (log : List Entry) (r : XrResult) :
          openedTokens (log ++ [Entry.failed r]) = openedTokens log := by
        rw [openedTokens_append]
        exact List.append_nil _
      refine ⟨generation, sequence, ?_, ?_⟩
      · rw [Reply.following_log, SessionState.fail, tokens]
        exact below
      · rw [Reply.following_log, SessionState.fail, tokens]
        exact nodup
    · exact reset

theorem endFrame_token {p : Protocol} (linked : Linked s p) {frame : Frame}
    {supplied : XrFrameEndInfo} {ready : RenderReady} {answer : XrResult} {c : Call}
    (dispatched : .call c ∈ (s.endFrame frame supplied ready answer).log) :
    p.phase = .begun ∧ p.openToken = some frame.token := by
  unfold SessionState.endFrame at dispatched
  split at dispatched
  · exact nomatch dispatched
  split at dispatched
  · exact nomatch dispatched
  split at dispatched
  · exact nomatch dispatched
  rename_i unfailed fresh begun
  have unfailed : s.hardFailure = false := by simpa using unfailed
  have isOpen : s.frameOpen = true := by
    by_contra h
    exact fresh (.inl h)
  have begun : s.deferred = false := by simpa using begun
  have token : s.token = frame.token := by
    obtain ⟨_, _, _, _, _, owner, generation, sequence⟩ := frame
    simp only [not_or, not_not] at fresh
    simp [SessionState.token, fresh]
  refine ⟨?_, ?_⟩
  · rw [linked.phase unfailed, isOpen, begun]
    rfl
  · rw [linked.openToken unfailed, isOpen, token]
    rfl

/-- A stale token never ends a frame. Over every life of the object, `end`
dispatches only for the token of the frame handed out last, which is open and begun
at that moment; and while fewer than `2 ^ 64` methods have run, no two frames are
handed out with one token. The tokens handed out are those of the log's openings. -/
theorem sessionState_tokens (owner : UInt64) (built : Construction) (methods : List Method) :
    (∀ frame supplied ready answer c,
      .call c ∈ ((sessionAfter owner built methods).endFrame frame supplied ready answer).log →
        (sessionMonitor.after {} (sessionLog owner built methods)).phase = .begun ∧
          (sessionMonitor.after {} (sessionLog owner built methods)).openToken =
            some frame.token ∧
          ((built.construct owner).state.handedOut methods).getLast?.map (·.token) =
            some frame.token) ∧
      openedTokens (sessionLog owner built methods) =
        ((built.construct owner).state.handedOut methods).map (·.token) ∧
      (methods.length + 1 < 2 ^ 64 →
        (((built.construct owner).state.handedOut methods).map (·.token)).Nodup) := by
  have tokens : openedTokens (sessionLog owner built methods) =
      ((built.construct owner).state.handedOut methods).map (·.token) := by
    rw [sessionLog, openedTokens_append, construct_hands, run_hands]
    rfl
  refine ⟨?_, tokens, ?_⟩
  · intro frame supplied ready answer c dispatched
    obtain ⟨begun, isOpen⟩ := endFrame_token (sessionLog_inStep owner built methods).2 dispatched
    refine ⟨begun, isOpen, ?_⟩
    rw [← List.getLast?_map, ← tokens]
    exact openToken_last _ isOpen
  · intro bound
    rw [← tokens]
    exact ((Numbered.construct owner built).run methods (by omega)).nodup

theorem run_replicate_abandon (owner g : UInt64) (n : Nat) :
    sessionMachine.run { owner := owner, generation := g }
        (List.replicate n .abandonAfterOwnerDestruction) =
      ({ owner := owner, generation := g + UInt64.ofNat n }, List.replicate n .abandoned) := by
  induction n generalizing g with
  | zero => simp
  | succ n ih =>
    have next : sessionMachine.perform { owner := owner, generation := g }
        .abandonAfterOwnerDestruction =
        ({ owner := owner, generation := g + 1 }, [.abandoned]) := rfl
    rw [List.replicate_succ, Machine.run_cons, next, ih]
    have sum : g + 1 + UInt64.ofNat n = g + UInt64.ofNat (n + 1) := by
      rw [UInt64.add_assoc, Nat.add_comm n 1, UInt64.ofNat_add]
      rfl
    rw [sum]
    rfl

theorem openedTokens_openFirst_abandon (n : Nat) :
    openedTokens (sessionLog 1 .unbound
      (openFirst ++ List.replicate (n + 1) Method.abandonAfterOwnerDestruction ++ openFirst)) =
      [⟨1, 2, 1⟩, ⟨1, 3 + UInt64.ofNat n + 1 + 1, 1⟩] := by
  have first : sessionMachine.run (SessionState.unbound 1)
      (openFirst ++ [Method.abandonAfterOwnerDestruction]) =
      ({ owner := 1, generation := 3 },
        [ .rebound 1, .call (.pollEvent ⟨0, .sessionStateChanged 1 .ready⟩),
          .call (.beginSession 0), .call (.waitFrame 0), .call (.beginFrame 0),
          .opened ⟨1, 2, 1⟩ false, .abandoned ]) := by
    decide
  have split : openFirst ++ List.replicate (n + 1) Method.abandonAfterOwnerDestruction ++ openFirst =
      (openFirst ++ [Method.abandonAfterOwnerDestruction]) ++
        (List.replicate n Method.abandonAfterOwnerDestruction ++ openFirst) := by
    simp [List.replicate_succ]
  have silent : openedTokens (List.replicate n Entry.abandoned) = [] := by
    simp [openedTokens, Entry.openedToken]
  unfold sessionLog
  rw [split, Machine.run_append, Construction.construct, first, Machine.run_append,
    run_replicate_abandon]
  simp only [openedTokens_append, silent]
  rfl

/-- The wrap of the 64-bit generation: after `2 ^ 64` fresh generations the first
frame's token is handed out again. -/
theorem token_repeats_after_wrap :
    ¬(((SessionState.unbound 1).handedOut
      (openFirst ++ List.replicate (2 ^ 64 - 3 + 1) Method.abandonAfterOwnerDestruction ++
        openFirst)).map (·.token)).Nodup := by
  have tokens := openedTokens_openFirst_abandon (2 ^ 64 - 3)
  rw [sessionLog, openedTokens_append, construct_hands, List.nil_append] at tokens
  rw [← run_hands]
  change ¬(openedTokens (sessionMachine.run (Construction.unbound.construct 1).state _).2).Nodup
  rw [tokens]
  decide

end EdvrPatch.OpenXr
