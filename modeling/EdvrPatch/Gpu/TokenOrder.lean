import EdvrPatch.Gpu.TokenRace

/-! What holds of the token and of the poisoned sequence in every interleaving. Both
only rise, so what a thread has loaded of them is at most what they are; a number
that was drawn belongs to one thread until it is returned. -/
namespace EdvrPatch.Gpu

def TokenTask.drawn : TokenTask → Option Nat
  | .tokenLoad seq => some seq
  | .tokenRaise seq _ => some seq
  | _ => none

def TokenTask.Fits (r : TokenRace) : TokenTask → Prop
  | .tokenRaise _ old => old / 2 ≤ r.token / 2
  | .poisonRaise _ old _ => old ≤ r.poisoned
  | _ => True

/-- What a reader has checked so far is not valid at or under the sequence. -/
def TokenTask.Clean (s : Nat) : TokenTask → Prop
  | .checking _ out => ∀ result ∈ out, result.reason = .valid → s < result.sequence
  | _ => True

def handedOut (log : List TokenEvent) : List Nat :=
  log.filterMap fun
    | .waitBegan _ seq => if seq = 0 then none else some seq
    | _ => none

def TokenMove.draws : TokenMove → Bool
  | .waitBegin => true
  | _ => false

namespace TokenRace

structure Advanced (r r' : TokenRace) (thread : Nat) (events : List TokenEvent) : Prop where
  token : r'.token = r.token ∨ (∃ seq, r.token / 2 < seq ∧ r'.token = 2 * seq) ∨
    ∃ s, r.token = 2 * s ∧ r'.token = 2 * s + 1 ∧ events = [.waitEnded thread s true]
  poisoned : r.poisoned ≤ r'.poisoned
  began : ∀ t s, .waitBegan t s ∈ events → s ≤ r'.token / 2
  armed : ∀ t s, .waitEnded t s true ∈ events → r.token = 2 * s ∧ r'.token = 2 * s + 1
  cancelled : ∀ t s, .cancelled t s true ∈ events → s ≤ r'.poisoned
  task : (r'.tasks thread).Fits r'
  others : ∀ t, t ≠ thread → r'.tasks t = r.tasks t

variable {r : TokenRace} {thread : Nat}

@[simp] theorem goto_tasks_self (r : TokenRace) (thread : Nat) (task : TokenTask) :
    (r.goto thread task).tasks thread = task := if_pos rfl

theorem goto_tasks_other (r : TokenRace) (task : TokenTask) {t thread : Nat} (other : t ≠ thread) :
    (r.goto thread task).tasks t = r.tasks t := if_neg other

variable {events : List TokenEvent} {r' : TokenRace}

theorem Advanced.goto (task : TokenTask) (fits : task.Fits r)
    (tasks : r'.tasks = (r.goto thread task).tasks) (token : r'.token = r.token)
    (poisoned : r'.poisoned = r.poisoned)
    (began : ∀ t s, .waitBegan t s ∈ events → s ≤ r.token / 2)
    (armed : ∀ t s, .waitEnded t s true ∉ events)
    (cancelled : ∀ t s, .cancelled t s true ∈ events → s ≤ r.poisoned) :
    Advanced r r' thread events where
  token := .inl token
  poisoned := Nat.le_of_eq poisoned.symm
  began := by
    rw [token]
    exact began
  armed := fun t s mem => absurd mem (armed t s)
  cancelled := by
    rw [poisoned]
    exact cancelled
  task := by
    rw [tasks, goto_tasks_self]
    unfold TokenTask.Fits at fits ⊢
    rw [token, poisoned]
    exact fits
  others := by
    intro t other
    rw [tasks, goto_tasks_other r task other]

theorem mem_poisonDone {e : TokenEvent} {sequence : Nat} {cancels : Bool}
    (mem : e ∈ poisonDone thread sequence cancels) : e = .cancelled thread sequence true := by
  unfold poisonDone at mem
  split at mem
  · exact List.mem_singleton.mp mem
  · cases mem

theorem Advanced.poisonDone {sequence : Nat} {cancels : Bool}
    (tasks : r'.tasks = (r.goto thread .idle).tasks) (token : r'.token = r.token)
    (raised : r.poisoned ≤ r'.poisoned) (covered : sequence ≤ r'.poisoned) :
    Advanced r r' thread (poisonDone thread sequence cancels) where
  token := .inl token
  poisoned := raised
  began := fun t s mem => nomatch mem_poisonDone mem
  armed := fun t s mem => nomatch mem_poisonDone mem
  cancelled := by
    intro t s mem
    cases mem_poisonDone mem
    exact covered
  task := by
    rw [tasks, goto_tasks_self]
    trivial
  others := by
    intro t other
    rw [tasks, goto_tasks_other r .idle other]

theorem proceed_advanced (fits : (r.tasks thread).Fits r) (spurious : Bool) :
    Advanced r (r.proceed thread spurious).1 thread (r.proceed thread spurious).2 := by
  unfold proceed
  split
  · exact ⟨.inl rfl, Nat.le_refl _, nofun, nofun, nofun, fits, fun _ _ => rfl⟩
  · exact .goto (.tokenRaise _ _) (Nat.le_refl _) rfl rfl rfl nofun nofun nofun
  · rename_i seq old isTask
    rw [isTask] at fits
    split
    · rename_i reached
      refine .goto .idle trivial rfl rfl rfl ?_ (by simp) (by simp)
      intro t s mem
      cases List.mem_singleton.mp mem
      exact Nat.le_trans reached fits
    · rename_i low
      split
      · rename_i swapped
        refine ⟨.inr (.inl ⟨seq, ?_, rfl⟩), Nat.le_refl _, ?_, by simp, by simp, ?_, ?_⟩
        · rw [swapped.1]
          omega
        · intro t s mem
          cases List.mem_singleton.mp mem
          change seq ≤ 2 * seq / 2
          omega
        · change TokenTask.Fits _ ((r.goto thread .idle).tasks thread)
          rw [goto_tasks_self]
          trivial
        · intro t other
          exact goto_tasks_other r .idle other
      · exact .goto (.tokenRaise _ _) (Nat.le_refl _) rfl rfl rfl nofun nofun nofun
  · exact .goto (.applicationRaise _ _) trivial rfl rfl rfl nofun nofun nofun
  · split
    · exact .goto (.arm _) trivial rfl rfl rfl nofun nofun nofun
    split
    · exact .goto (.arm _) trivial rfl rfl rfl nofun nofun nofun
    · exact .goto (.applicationRaise _ _) trivial rfl rfl rfl nofun nofun nofun
  · rename_i sequence _
    split
    · rename_i same
      refine ⟨.inr (.inr ⟨sequence, same, rfl, rfl⟩), Nat.le_refl _, by simp, ?_, by simp, ?_, ?_⟩
      · intro t s mem
        cases List.mem_singleton.mp mem
        exact ⟨same, rfl⟩
      · change TokenTask.Fits _ ((r.goto thread .idle).tasks thread)
        rw [goto_tasks_self]
        trivial
      · intro t other
        exact goto_tasks_other r .idle other
    · exact .goto .idle trivial rfl rfl rfl (by simp) (by simp) (by simp)
  · exact .goto (.poisonRaise _ _ _) (Nat.le_refl _) rfl rfl rfl nofun nofun nofun
  · rename_i sequence old cancels isTask
    rw [isTask] at fits
    split
    · rename_i reached
      exact .poisonDone rfl rfl (Nat.le_refl _) (Nat.le_trans reached fits)
    · rename_i low
      split
      · rename_i swapped
        refine .poisonDone rfl rfl ?_ (Nat.le_refl _)
        change r.poisoned ≤ sequence
        omega
      · exact .goto (.poisonRaise _ _ _) (Nat.le_refl _) rfl rfl rfl nofun nofun nofun
  · exact .goto .idle trivial rfl rfl rfl nofun nofun nofun
  · exact .goto .idle trivial rfl rfl rfl (by simp) (by simp) (by simp)
  · exact .goto (.checking _ _) trivial rfl rfl rfl nofun nofun nofun

theorem Advanced.answered (fits : (r.tasks thread).Fits r) (tasks : r'.tasks = r.tasks)
    (token : r'.token = r.token) (poisoned : r'.poisoned = r.poisoned)
    (began : ∀ t s, .waitBegan t s ∈ events → s = 0) (armed : ∀ t s, .waitEnded t s true ∉ events)
    (cancelled : ∀ t s, .cancelled t s true ∉ events) :
    Advanced r r' thread events where
  token := .inl token
  poisoned := Nat.le_of_eq poisoned.symm
  began := by
    intro t s mem
    rw [began t s mem]
    exact Nat.zero_le _
  armed := fun t s mem => absurd mem (armed t s)
  cancelled := fun t s mem => absurd mem (cancelled t s)
  task := by
    rw [tasks]
    unfold TokenTask.Fits at fits ⊢
    rw [token, poisoned]
    exact fits
  others := by
    intro t _
    rw [tasks]

theorem start_advanced (fits : (r.tasks thread).Fits r) (move : TokenMove) :
    Advanced r (r.start thread move).1 thread (r.start thread move).2 := by
  unfold start
  split
  · dsimp only
    split
    · exact .goto (.tokenLoad _) trivial rfl rfl rfl nofun nofun nofun
    · exact .answered fits rfl rfl rfl (by simp) (by simp) (by simp)
  · split
    · exact .answered fits rfl rfl rfl (by simp) (by simp) (by simp)
    split
    · exact .goto (.applicationLoad _) trivial rfl rfl rfl nofun nofun nofun
    split
    · exact .goto (.arm _) trivial rfl rfl rfl nofun nofun nofun
    · exact .goto (.poisonLoad _ _) trivial rfl rfl rfl nofun nofun nofun
  · split
    · exact .answered fits rfl rfl rfl (by simp) (by simp) (by simp)
    · exact .goto (.poisonLoad _ _) trivial rfl rfl rfl nofun nofun nofun
  · exact .goto (.poisonLoad _ _) trivial rfl rfl rfl nofun nofun nofun
  · exact .goto (.publishing _) trivial rfl rfl rfl nofun nofun nofun
  · exact .goto (.checking _ _) trivial rfl rfl rfl (by simp) (by simp) (by simp)
  · exact .goto (.checking _ _) trivial rfl rfl rfl (by simp) (by simp) (by simp)
  · exact .answered fits rfl rfl rfl nofun nofun nofun

theorem step_advanced (fits : (r.tasks thread).Fits r) (move : TokenMove) :
    Advanced r (r.step thread move).1 thread (r.step thread move).2 := by
  unfold step
  split
  · exact proceed_advanced fits _
  · split
    · exact start_advanced fits _
    · exact .answered fits rfl rfl rfl nofun nofun nofun

theorem Advanced.token_le (advanced : Advanced r r' thread events) :
    r.token / 2 ≤ r'.token / 2 := by
  rcases advanced.token with same | ⟨seq, low, same⟩ | ⟨s, was, same, _⟩
  · rw [same]
  · omega
  · omega

theorem Fits.mono {r : TokenRace} {task : TokenTask} (fits : task.Fits r)
    (token : r.token / 2 ≤ r'.token / 2) (poisoned : r.poisoned ≤ r'.poisoned) : task.Fits r' := by
  cases task with
  | tokenRaise seq old => exact Nat.le_trans fits token
  | poisonRaise sequence old cancels => exact Nat.le_trans fits poisoned
  | _ => trivial

end TokenRace

theorem raceAfter_concat (moves : List (Nat × TokenMove)) (thread : Nat) (move : TokenMove) :
    raceAfter (moves ++ [(thread, move)]) =
      (((raceAfter moves).1.step thread move).1,
        (raceAfter moves).2 ++ ((raceAfter moves).1.step thread move).2) :=
  Lib.traced_concat _ _ moves (thread, move)

structure Ordered (r : TokenRace) (log : List TokenEvent) : Prop where
  fits : ∀ t, (r.tasks t).Fits r
  began : ∀ t s, .waitBegan t s ∈ log → s ≤ r.token / 2
  cancelled : ∀ t s, .cancelled t s true ∈ log → s ≤ r.poisoned

theorem Ordered.advance {r r' : TokenRace} {log events : List TokenEvent} {thread : Nat}
    (h : Ordered r log) (advanced : r.Advanced r' thread events) : Ordered r' (log ++ events) where
  fits := by
    intro t
    by_cases same : t = thread
    · rw [same]
      exact advanced.task
    · rw [advanced.others t same]
      exact TokenRace.Fits.mono (h.fits t) advanced.token_le advanced.poisoned
  began := by
    intro t s mem
    rcases List.mem_append.mp mem with old | new
    · exact Nat.le_trans (h.began t s old) advanced.token_le
    · exact advanced.began t s new
  cancelled := by
    intro t s mem
    rcases List.mem_append.mp mem with old | new
    · exact Nat.le_trans (h.cancelled t s old) advanced.poisoned
    · exact advanced.cancelled t s new

theorem Ordered.after (moves : List (Nat × TokenMove)) :
    Ordered (raceAfter moves).1 (raceAfter moves).2 := by
  apply Lib.traced_induction
  · exact ⟨fun _ => trivial, nofun, nofun⟩
  · intro r log move ih
    exact ih.advance (TokenRace.step_advanced (ih.fits move.1) move.2)

theorem advanced_after (moves : List (Nat × TokenMove)) (thread : Nat) (move : TokenMove) :
    (raceAfter moves).1.Advanced (raceAfter (moves ++ [(thread, move)])).1 thread
      ((raceAfter moves).1.step thread move).2 := by
  rw [raceAfter_concat]
  exact TokenRace.step_advanced ((Ordered.after moves).fits thread) move

theorem token_le_append (moves more : List (Nat × TokenMove)) :
    (raceAfter moves).1.token / 2 ≤ (raceAfter (moves ++ more)).1.token / 2 :=
  Lib.traced_mono (f := fun r => r.token / 2) _ _ Ordered.after
    (fun _ _ move h => (TokenRace.step_advanced (h.fits move.1) move.2).token_le) moves more

theorem poisoned_le_append (moves more : List (Nat × TokenMove)) :
    (raceAfter moves).1.poisoned ≤ (raceAfter (moves ++ more)).1.poisoned :=
  Lib.traced_mono (f := TokenRace.poisoned) _ _ Ordered.after
    (fun _ _ move h => (TokenRace.step_advanced (h.fits move.1) move.2).poisoned) moves more

theorem armed_not_below (before after : List (Nat × TokenMove)) {t u seq s : Nat}
    (began : .waitBegan t seq ∈ (raceAfter before).2)
    (armed : .waitEnded u s true ∈ eventsAfter before after) : seq ≤ s := by
  obtain ⟨between, move, _, _, mem⟩ := Lib.exists_of_mem_saidAfter _ _ armed
  have high := (Ordered.after before).began t seq began
  have rises := token_le_append before between
  have token := ((advanced_after (before ++ between) move.1 move.2).armed u s mem).1
  omega

namespace TokenRace

variable {r : TokenRace} {thread : Nat}

theorem clipped_above {s poisoned : Nat} {result : GpuSpanResult} (covered : s ≤ poisoned)
    (valid : (clipped poisoned result).reason = .valid) : s < (clipped poisoned result).sequence := by
  unfold clipped at valid ⊢
  split at valid
  · cases valid
  · rename_i passed
    rw [if_neg passed]
    by_contra low
    exact passed ⟨valid, by omega⟩

theorem step_returns {t : Nat} {out : List GpuSpanResult} {move : TokenMove}
    (returned : .readReturned t out ∈ (r.step thread move).2) :
    t = thread ∧ r.tasks thread = .checking [] out := by
  unfold step at returned
  split at returned
  · unfold proceed at returned
    split at returned
    case h_10 out isTask =>
      cases List.mem_singleton.mp returned
      exact ⟨rfl, isTask⟩
    case h_8 sequence old cancels isTask =>
      split at returned
      · cases mem_poisonDone returned
      split at returned
      · cases mem_poisonDone returned
      · cases returned
    all_goals
      repeat' split at returned
      all_goals simp at returned
  · split at returned
    · unfold start at returned
      dsimp only at returned
      repeat' split at returned
      all_goals simp at returned
    · cases returned

theorem step_clean {s : Nat} (covered : s ≤ r.poisoned) (clean : (r.tasks thread).Clean s)
    (move : TokenMove) : ((r.step thread move).1.tasks thread).Clean s := by
  have goes {task : TokenTask} {r' : TokenRace} (tasks : r'.tasks = (r.goto thread task).tasks)
      (isClean : task.Clean s) : (r'.tasks thread).Clean s := by
    rw [tasks, goto_tasks_self]
    exact isClean
  unfold step
  split
  · unfold proceed
    split
    · exact clean
    · exact goes rfl trivial
    · split
      · exact goes rfl trivial
      split
      · exact goes rfl trivial
      · exact goes rfl trivial
    · exact goes rfl trivial
    · split
      · exact goes rfl trivial
      split
      · exact goes rfl trivial
      · exact goes rfl trivial
    · split
      · exact goes rfl trivial
      · exact goes rfl trivial
    · exact goes rfl trivial
    · split
      · exact goes rfl trivial
      split
      · exact goes rfl trivial
      · exact goes rfl trivial
    · exact goes rfl trivial
    · exact goes rfl trivial
    · rename_i result rest out isTask
      rw [isTask] at clean
      refine goes rfl ?_
      intro other mem valid
      rcases List.mem_append.mp mem with old | new
      · exact clean other old valid
      · cases List.mem_singleton.mp new
        exact clipped_above covered valid
  · split
    · unfold start
      split
      · dsimp only
        split
        · exact goes rfl trivial
        · exact clean
      · split
        · exact clean
        split
        · exact goes rfl trivial
        split
        · exact goes rfl trivial
        · exact goes rfl trivial
      · split
        · exact clean
        · exact goes rfl trivial
      · exact goes rfl trivial
      · exact goes rfl trivial
      · exact goes rfl nofun
      · exact goes rfl nofun
      · exact clean
    · exact clean

end TokenRace

theorem clean_after_cancel (before after : List (Nat × TokenMove)) {t u s : Nat}
    (cancelled : .cancelled u s true ∈ (raceAfter before).2)
    (idle : (raceAfter before).1.tasks t = .idle) :
    ((raceAfter (before ++ after)).1.tasks t).Clean s := by
  induction after using List.reverseRecOn with
  | nil =>
    rw [List.append_nil, idle]
    trivial
  | append_singleton after move ih =>
    have covered : s ≤ (raceAfter (before ++ after)).1.poisoned :=
      Nat.le_trans ((Ordered.after before).cancelled u s cancelled) (poisoned_le_append before after)
    have advanced := advanced_after (before ++ after) move.1 move.2
    rw [← List.append_assoc]
    by_cases same : t = move.1
    · subst same
      rw [raceAfter_concat]
      exact TokenRace.step_clean covered ih move.2
    · rw [advanced.others t same]
      exact ih

theorem read_after_cancel (before after : List (Nat × TokenMove)) {t u s : Nat}
    {out : List GpuSpanResult} (cancelled : .cancelled u s true ∈ (raceAfter before).2)
    (idle : (raceAfter before).1.tasks t = .idle)
    (returned : .readReturned t out ∈ eventsAfter before after) :
    ∀ result ∈ out, result.reason = .valid → s < result.sequence := by
  obtain ⟨between, move, _, _, mem⟩ := Lib.exists_of_mem_saidAfter _ _ returned
  have clean := clean_after_cancel before between cancelled idle
  obtain ⟨rfl, isTask⟩ := TokenRace.step_returns mem
  have isTask : (raceAfter (before ++ between)).1.tasks move.1 = .checking [] out := isTask
  rw [isTask] at clean
  exact clean

namespace TokenRace

variable {r : TokenRace} {thread : Nat}

/-- What one step does to the numbers: it draws one, returns one, or neither. -/
inductive Draws (r r' : TokenRace) (thread : Nat) (move : TokenMove) (events : List TokenEvent) :
    Prop where
  | keeps (next : r'.nextSequence = r.nextSequence)
      (task : (r'.tasks thread).drawn = (r.tasks thread).drawn) (none : handedOut events = [])
  | draws (isDraw : move.draws = true) (next : r'.nextSequence = (r.nextSequence + 1) % 2 ^ 64)
      (task : (r'.tasks thread).drawn = none ∨
        (r'.tasks thread).drawn = some r'.nextSequence ∧ r'.nextSequence ≠ 0)
      (none : handedOut events = [])
  | returns (s : Nat) (next : r'.nextSequence = r.nextSequence)
      (task : (r.tasks thread).drawn = some s) (free : (r'.tasks thread).drawn = none)
      (one : handedOut events = [s] ∨ handedOut events = [])

theorem handedOut_poisonDone (thread sequence : Nat) (cancels : Bool) :
    handedOut (poisonDone thread sequence cancels) = [] := by
  unfold poisonDone
  split
  · rfl
  · rfl

theorem proceed_draws (r : TokenRace) (thread : Nat) (spurious : Bool) :
    Draws r (r.proceed thread spurious).1 thread (.proceed spurious)
      (r.proceed thread spurious).2 := by
  have keeps {task : TokenTask} {r' : TokenRace} {events : List TokenEvent}
      (tasks : r'.tasks = (r.goto thread task).tasks) (next : r'.nextSequence = r.nextSequence)
      (same : task.drawn = (r.tasks thread).drawn) (none : handedOut events = []) :
      Draws r r' thread (.proceed spurious) events :=
    .keeps next (by rw [tasks, goto_tasks_self, same]) none
  have returns {r' : TokenRace} {seq : Nat} (tasks : r'.tasks = (r.goto thread .idle).tasks)
      (next : r'.nextSequence = r.nextSequence) (was : (r.tasks thread).drawn = some seq) :
      Draws r r' thread (.proceed spurious) [.waitBegan thread seq] := by
    refine .returns seq next was (by rw [tasks, goto_tasks_self]; rfl) ?_
    by_cases zero : seq = 0
    · exact .inr (by simp [handedOut, zero])
    · exact .inl (by simp [handedOut, zero])
  unfold proceed
  split
  all_goals (rename_i isTask)
  · exact .keeps rfl rfl rfl
  · exact keeps rfl rfl (by rw [isTask]; rfl) rfl
  · split
    · exact returns rfl rfl (by rw [isTask]; rfl)
    split
    · exact returns rfl rfl (by rw [isTask]; rfl)
    · exact keeps rfl rfl (by rw [isTask]; rfl) rfl
  · exact keeps rfl rfl (by rw [isTask]; rfl) rfl
  · split
    · exact keeps rfl rfl (by rw [isTask]; rfl) rfl
    split
    · exact keeps rfl rfl (by rw [isTask]; rfl) rfl
    · exact keeps rfl rfl (by rw [isTask]; rfl) rfl
  · split
    · exact keeps rfl rfl (by rw [isTask]; rfl) rfl
    · exact keeps rfl rfl (by rw [isTask]; rfl) rfl
  · exact keeps rfl rfl (by rw [isTask]; rfl) rfl
  · split
    · exact keeps rfl rfl (by rw [isTask]; rfl) (handedOut_poisonDone thread _ _)
    split
    · exact keeps rfl rfl (by rw [isTask]; rfl) (handedOut_poisonDone thread _ _)
    · exact keeps rfl rfl (by rw [isTask]; rfl) rfl
  · exact keeps rfl rfl (by rw [isTask]; rfl) rfl
  · exact keeps rfl rfl (by rw [isTask]; rfl) rfl
  · exact keeps rfl rfl (by rw [isTask]; rfl) rfl

theorem start_draws (r : TokenRace) (thread : Nat) (move : TokenMove)
    (idle : r.tasks thread = .idle) :
    Draws r (r.start thread move).1 thread move (r.start thread move).2 := by
  have keeps {task : TokenTask} {r' : TokenRace} {move : TokenMove} {events : List TokenEvent}
      (tasks : r'.tasks = (r.goto thread task).tasks) (next : r'.nextSequence = r.nextSequence)
      (same : task.drawn = none) (none : handedOut events = []) : Draws r r' thread move events :=
    .keeps next (by rw [tasks, goto_tasks_self, same, idle]; rfl) none
  unfold start
  split
  · dsimp only
    split
    · rename_i fits
      refine .draws rfl rfl (.inr ⟨?_, ?_⟩) rfl
      · rw [goto_tasks_self]
        rfl
      · intro zero
        have zero : (r.nextSequence + 1) % 2 ^ 64 = 0 := zero
        rw [zero] at fits
        cases fits
    · exact .draws rfl rfl (.inl (by rw [idle]; rfl)) rfl
  · split
    · exact .keeps rfl rfl rfl
    split
    · exact keeps rfl rfl rfl rfl
    split
    · exact keeps rfl rfl rfl rfl
    · exact keeps rfl rfl rfl rfl
  · split
    · exact .keeps rfl rfl rfl
    · exact keeps rfl rfl rfl rfl
  · exact keeps rfl rfl rfl rfl
  · exact keeps rfl rfl rfl rfl
  · exact keeps rfl rfl rfl rfl
  · exact keeps rfl rfl rfl rfl
  · exact .keeps rfl rfl rfl

theorem step_draws (r : TokenRace) (thread : Nat) (move : TokenMove) :
    Draws r (r.step thread move).1 thread move (r.step thread move).2 := by
  unfold step
  split
  · exact proceed_draws r thread _
  · split
    · rename_i idle
      exact start_draws r thread _ idle
    · exact .keeps rfl rfl rfl

end TokenRace

def drawCount (moves : List (Nat × TokenMove)) : Nat := moves.countP (·.2.draws)

structure Distinct (moves : List (Nat × TokenMove)) (r : TokenRace) (log : List TokenEvent) :
    Prop where
  counter : r.nextSequence ≤ drawCount moves
  low : ∀ s, s ∈ handedOut log ∨ (∃ t, (r.tasks t).drawn = some s) →
    s ≤ r.nextSequence ∨ 2 ^ 64 ≤ drawCount moves
  apart : ∀ t s, (r.tasks t).drawn = some s → s ∉ handedOut log
  alone : ∀ t u s, (r.tasks t).drawn = some s → (r.tasks u).drawn = some s → t = u
  nodup : (handedOut log).Nodup

theorem handedOut_append (log events : List TokenEvent) :
    handedOut (log ++ events) = handedOut log ++ handedOut events :=
  List.filterMap_append

section Step

variable {moves : List (Nat × TokenMove)} {r r' : TokenRace} {log events : List TokenEvent}
  {thread : Nat} {move : TokenMove} (h : Distinct moves r log)
  (others : ∀ t, t ≠ thread → r'.tasks t = r.tasks t)
include h others

theorem Distinct.keeps (next : r'.nextSequence = r.nextSequence)
    (task : (r'.tasks thread).drawn = (r.tasks thread).drawn) (none : handedOut events = []) :
    Distinct (moves ++ [(thread, move)]) r' (log ++ events) := by
  have same (t : Nat) : (r'.tasks t).drawn = (r.tasks t).drawn := by
    by_cases mine : t = thread
    · rw [mine, task]
    · rw [others t mine]
  have more : drawCount moves ≤ drawCount (moves ++ [(thread, move)]) := by
    rw [drawCount, drawCount, List.countP_append]
    omega
  refine ⟨?_, ?_, ?_, ?_, ?_⟩
  · rw [next]
    exact Nat.le_trans h.counter more
  · intro s is
    simp only [handedOut_append, none, List.append_nil, same] at is
    rcases h.low s is with low | full
    · exact .inl (next ▸ low)
    · exact .inr (Nat.le_trans full more)
  · intro t s is
    rw [handedOut_append, none, List.append_nil]
    exact h.apart t s (same t ▸ is)
  · intro t u s is is'
    exact h.alone t u s (same t ▸ is) (same u ▸ is')
  · rw [handedOut_append, none, List.append_nil]
    exact h.nodup

theorem Distinct.returns {s : Nat} (next : r'.nextSequence = r.nextSequence)
    (task : (r.tasks thread).drawn = some s) (free : (r'.tasks thread).drawn = none)
    (one : handedOut events = [s] ∨ handedOut events = []) :
    Distinct (moves ++ [(thread, move)]) r' (log ++ events) := by
  have was {t u : Nat} (is : (r'.tasks t).drawn = some u) :
      t ≠ thread ∧ (r.tasks t).drawn = some u := by
    by_cases mine : t = thread
    · rw [mine, free] at is
      cases is
    · rw [others t mine] at is
      exact ⟨mine, is⟩
  have more : drawCount moves ≤ drawCount (moves ++ [(thread, move)]) := by
    rw [drawCount, drawCount, List.countP_append]
    omega
  have mem {u : Nat} (mem : u ∈ handedOut (log ++ events)) : u ∈ handedOut log ∨ u = s := by
    rw [handedOut_append] at mem
    rcases List.mem_append.mp mem with old | new
    · exact .inl old
    · rcases one with one | one
      · rw [one] at new
        exact .inr (List.mem_singleton.mp new)
      · rw [one] at new
        cases new
  refine ⟨?_, ?_, ?_, ?_, ?_⟩
  · rw [next]
    exact Nat.le_trans h.counter more
  · intro u is
    have old : u ∈ handedOut log ∨ ∃ t, (r.tasks t).drawn = some u := by
      rcases is with is | ⟨t, is⟩
      · rcases mem is with old | rfl
        · exact .inl old
        · exact .inr ⟨thread, task⟩
      · exact .inr ⟨t, (was is).2⟩
    rcases h.low u old with low | full
    · exact .inl (next ▸ low)
    · exact .inr (Nat.le_trans full more)
  · intro t u is isOut
    obtain ⟨other, is⟩ := was is
    rcases mem isOut with old | rfl
    · exact h.apart t u is old
    · exact other (h.alone t thread u is task)
  · intro t u v is is'
    exact h.alone t u v (was is).2 (was is').2
  · rw [handedOut_append]
    rcases one with one | one
    · rw [one, List.nodup_append]
      refine ⟨h.nodup, List.nodup_singleton s, ?_⟩
      intro a old b new same
      rw [same, List.mem_singleton.mp new] at old
      exact h.apart thread s task old
    · rw [one, List.append_nil]
      exact h.nodup

theorem Distinct.draws (few : drawCount (moves ++ [(thread, move)]) ≤ 2 ^ 64)
    (isDraw : move.draws = true) (next : r'.nextSequence = (r.nextSequence + 1) % 2 ^ 64)
    (task : (r'.tasks thread).drawn = none ∨
      (r'.tasks thread).drawn = some r'.nextSequence ∧ r'.nextSequence ≠ 0)
    (none : handedOut events = []) : Distinct (moves ++ [(thread, move)]) r' (log ++ events) := by
  have count : drawCount (moves ++ [(thread, move)]) = drawCount moves + 1 := by
    rw [drawCount, List.countP_append, List.countP_singleton, if_pos isDraw]
    rfl
  have counter := h.counter
  have wraps : r'.nextSequence = r.nextSequence + 1 ∨
      r'.nextSequence = 0 ∧ drawCount (moves ++ [(thread, move)]) = 2 ^ 64 := by
    rcases Nat.lt_or_ge (r.nextSequence + 1) (2 ^ 64) with fits | full
    · exact .inl (next.trans (Nat.mod_eq_of_lt fits))
    · have full : r.nextSequence + 1 = 2 ^ 64 := by omega
      rw [full, Nat.mod_self] at next
      exact .inr ⟨next, by omega⟩
  have low {s : Nat} (is : s ∈ handedOut log ∨ ∃ t, (r.tasks t).drawn = some s) :
      s ≤ r.nextSequence := by
    rcases h.low s is with low | full
    · exact low
    · omega
  have was {t u : Nat} (is : (r'.tasks t).drawn = some u) :
      (r.tasks t).drawn = some u ∨ t = thread ∧ u = r.nextSequence + 1 := by
    by_cases mine : t = thread
    · rw [mine] at is
      rcases task with empty | ⟨task, nonzero⟩
      · rw [empty] at is
        cases is
      · rw [task] at is
        cases is
        rcases wraps with wraps | ⟨zero, _⟩
        · exact .inr ⟨mine, wraps⟩
        · exact absurd zero nonzero
    · rw [others t mine] at is
      exact .inl is
  refine ⟨?_, ?_, ?_, ?_, ?_⟩
  · rcases wraps with wraps | ⟨zero, _⟩
    · omega
    · omega
  · intro s is
    rw [handedOut_append, none, List.append_nil] at is
    have old : s ≤ r.nextSequence + 1 := by
      rcases is with is | ⟨t, is⟩
      · exact Nat.le_succ_of_le (low (.inl is))
      · rcases was is with is | ⟨_, rfl⟩
        · exact Nat.le_succ_of_le (low (.inr ⟨t, is⟩))
        · exact Nat.le_refl _
    rcases wraps with wraps | ⟨_, full⟩
    · exact .inl (wraps ▸ old)
    · exact .inr (Nat.le_of_eq full.symm)
  · intro t s is isOut
    rw [handedOut_append, none, List.append_nil] at isOut
    rcases was is with is | ⟨_, rfl⟩
    · exact h.apart t s is isOut
    · have := low (.inl isOut)
      omega
  · intro t u s is is'
    rcases was is with is | ⟨mine, isNew⟩
    · rcases was is' with is' | ⟨_, isNew⟩
      · exact h.alone t u s is is'
      · have := low (.inr ⟨t, is⟩)
        omega
    · rcases was is' with is' | ⟨mine', _⟩
      · have := low (.inr ⟨u, is'⟩)
        omega
      · rw [mine, mine']
  · rw [handedOut_append, none, List.append_nil]
    exact h.nodup

end Step

theorem Distinct.after {moves : List (Nat × TokenMove)} (few : drawCount moves ≤ 2 ^ 64) :
    Distinct moves (raceAfter moves).1 (raceAfter moves).2 := by
  induction moves using List.reverseRecOn with
  | nil =>
    refine ⟨Nat.le_refl _, ?_, nofun, nofun, List.nodup_nil⟩
    simp [handedOut, raceAfter, Lib.traced, TokenTask.drawn]
  | append_singleton moves move ih =>
    have h := ih (by
      rw [drawCount, List.countP_append] at few
      exact Nat.le_trans (Nat.le_add_right _ _) few)
    have others := (advanced_after moves move.1 move.2).others
    rw [raceAfter_concat] at others ⊢
    cases TokenRace.step_draws (raceAfter moves).1 move.1 move.2 with
    | keeps next task none => exact h.keeps others next task none
    | draws isDraw next task none => exact h.draws others few isDraw next task none
    | returns s next task free one => exact h.returns others next task free one

def TokenTask.Cancels (s : Nat) (task : TokenTask) : Prop :=
  task = .poisonLoad s true ∨ ∃ old, task = .poisonRaise s old true

theorem TokenRace.step_cancels {r : TokenRace} {thread s : Nat} (task : (r.tasks thread).Cancels s)
    (move : TokenMove) : ((r.step thread move).1.tasks thread).Cancels s ∨
      .cancelled thread s true ∈ (r.step thread move).2 := by
  have busy : r.tasks thread ≠ .idle := by
    rcases task with load | ⟨old, raise⟩
    · rw [load]
      simp
    · rw [raise]
      simp
  cases move with
  | proceed spurious =>
    unfold TokenRace.step TokenRace.proceed
    rcases task with load | ⟨old, raise⟩
    · rw [load]
      exact .inl (.inr ⟨r.poisoned, goto_tasks_self ..⟩)
    · rw [raise]
      dsimp only
      split
      · exact .inr (List.mem_singleton_self _)
      split
      · exact .inr (List.mem_singleton_self _)
      · exact .inl (.inr ⟨r.poisoned, goto_tasks_self ..⟩)
  | _ =>
    simp only [TokenRace.step, if_neg busy]
    exact .inl task

/-- A cancellation of a sequence in range that the thread began, and returned from. -/
def Cancelled (moves : List (Nat × TokenMove)) (u s : Nat) : Prop :=
  ∃ earlier between, moves = earlier ++ (u, TokenMove.cancel s) :: between ∧
    (raceAfter earlier).1.tasks u = .idle ∧ inRange s = true ∧ (raceAfter moves).1.tasks u = .idle

theorem Cancelled.told {moves : List (Nat × TokenMove)} {u s : Nat} (cancelled : Cancelled moves u s) :
    .cancelled u s true ∈ (raceAfter moves).2 := by
  obtain ⟨earlier, between, rfl, idle, range, returned⟩ := cancelled
  have going : ((raceAfter (earlier ++ (u, TokenMove.cancel s) :: between)).1.tasks u).Cancels s ∨
      .cancelled u s true ∈ (raceAfter (earlier ++ (u, TokenMove.cancel s) :: between)).2 := by
    clear returned
    induction between using List.reverseRecOn with
    | nil =>
      rw [raceAfter_concat]
      refine .inl (.inl ?_)
      simp [TokenRace.step, TokenRace.start, idle, range]
    | append_singleton between move ih =>
      rw [← List.cons_append, ← List.append_assoc, raceAfter_concat]
      rcases ih with task | told
      · by_cases mine : move.1 = u
        · rw [mine]
          exact (TokenRace.step_cancels task move.2).imp_right (List.mem_append_right _)
        · left
          have others := (advanced_after (earlier ++ (u, TokenMove.cancel s) :: between) move.1 move.2).others
          rw [raceAfter_concat] at others
          rw [others u (Ne.symm mine)]
          exact task
      · exact .inr (List.mem_append_left _ told)
  refine going.resolve_left ?_
  rw [returned]
  simp [TokenTask.Cancels]

/-- In every interleaving of waits, cancellations and readers: the token's sequence
never falls, only the sequence in it is armed, and none below one that was returned
before; what a reader returns that began after a cancellation is not valid for a
cancelled sequence; and, until the counter has come around, no sequence is returned
twice. -/
theorem token_never_rolls_back (before after : List (Nat × TokenMove)) :
    (raceAfter before).1.token / 2 ≤ (raceAfter (before ++ after)).1.token / 2 ∧
    (∀ thread move t s, .waitEnded t s true ∈ ((raceAfter before).1.step thread move).2 →
      (raceAfter before).1.token = 2 * s) ∧
    (∀ thread move, ((raceAfter before).1.step thread move).1.token % 2 = 1 →
      ((raceAfter before).1.step thread move).1.token ≠ (raceAfter before).1.token →
        ∃ s, ((raceAfter before).1.step thread move).2 = [.waitEnded thread s true] ∧
          (raceAfter before).1.token = 2 * s) ∧
    (∀ t seq u s, .waitBegan t seq ∈ (raceAfter before).2 →
      .waitEnded u s true ∈ eventsAfter before after → seq ≤ s) ∧
    (drawCount before ≤ 2 ^ 64 → (handedOut (raceAfter before).2).Nodup) ∧
    ∀ u s t out, .cancelled u s true ∈ (raceAfter before).2 ∨ Cancelled before u s →
      (raceAfter before).1.tasks t = .idle → .readReturned t out ∈ eventsAfter before after →
        ∀ result ∈ out, result.reason = .valid → s < result.sequence := by
  have advanced (thread : Nat) (move : TokenMove) :=
    TokenRace.step_advanced ((Ordered.after before).fits thread) move
  refine ⟨token_le_append before after, ?_, ?_, ?_, ?_, ?_⟩
  · intro thread move t s armed
    exact ((advanced thread move).armed t s armed).1
  · intro thread move odd changed
    rcases (advanced thread move).token with same | ⟨seq, _, even⟩ | ⟨s, was, _, events⟩
    · exact absurd same changed
    · omega
    · exact ⟨s, events, was⟩
  · intro t seq u s began armed
    exact armed_not_below before after began armed
  · intro few
    exact (Distinct.after few).nodup
  · intro u s t out cancelled idle returned
    exact read_after_cancel before after (cancelled.elim id Cancelled.told) idle returned

/-- One wait that is returned, and `n` threads that have just drawn a number. -/
def crowd (n : Nat) : List (Nat × TokenMove) :=
  [(0, TokenMove.waitBegin), (0, .proceed false), (0, .proceed false)] ++
    (List.range n).map fun i => (i + 1, TokenMove.waitBegin)

theorem crowd_state (n : Nat) :
    (raceAfter (crowd n)).1.nextSequence = (n + 1) % 2 ^ 64 ∧ (raceAfter (crowd n)).1.token = 2 ∧
      handedOut (raceAfter (crowd n)).2 = [1] ∧
      ∀ t, n < t → (raceAfter (crowd n)).1.tasks t = .idle := by
  induction n with
  | zero =>
    refine ⟨rfl, rfl, rfl, fun t pos => ?_⟩
    have nonzero : t ≠ 0 := by omega
    simp [crowd, raceAfter, Lib.traced, TokenRace.step, TokenRace.start, TokenRace.proceed, TokenRace.goto,
      inRange, nonzero]
  | succ n ih =>
    obtain ⟨next, token, out, idle⟩ := ih
    have longer : crowd (n + 1) = crowd n ++ [(n + 1, TokenMove.waitBegin)] := by
      simp [crowd, List.range_succ]
    rw [longer, raceAfter_concat]
    have started : (raceAfter (crowd n)).1.step (n + 1) .waitBegin =
        (raceAfter (crowd n)).1.start (n + 1) .waitBegin := by
      rw [TokenRace.step, if_pos (idle (n + 1) (Nat.lt_succ_self n))]
      rintro _ ⟨⟩
    rw [started]
    unfold TokenRace.start
    dsimp only
    rw [next, Nat.mod_add_mod]
    split
    · refine ⟨rfl, token, ?_, fun t above => ?_⟩
      · rwa [List.append_nil]
      · rw [TokenRace.goto_tasks_other _ _ (by omega)]
        exact idle t (by omega)
    · refine ⟨rfl, token, ?_, fun t above => idle t (by omega)⟩
      rw [handedOut_append, out]
      rfl

theorem crowd_again (r : TokenRace) (thread : Nat) (next : r.nextSequence = 0) (token : r.token = 2)
    (idle : r.tasks thread = .idle) :
    let drawn := r.step thread .waitBegin
    let loaded := drawn.1.step thread (.proceed false)
    drawn.2 = [] ∧ loaded.2 = [] ∧
      (loaded.1.step thread (.proceed false)).2 = [.waitBegan thread 1] := by
  simp [TokenRace.step, TokenRace.start, TokenRace.proceed, TokenRace.goto, inRange, next, token, idle]

theorem crowd_twice {n : Nat} (full : (n + 1) % 2 ^ 64 = 0) :
    ¬(handedOut (raceAfter (crowd n ++ [(n + 1, TokenMove.waitBegin)] ++ [(n + 1, TokenMove.proceed false)] ++
      [(n + 1, TokenMove.proceed false)])).2).Nodup := by
  obtain ⟨next, token, out, idle⟩ := crowd_state n
  rw [full] at next
  obtain ⟨first, second, third⟩ :=
    crowd_again (raceAfter (crowd n)).1 (n + 1) next token (idle (n + 1) (Nat.lt_succ_self n))
  simp only [raceAfter_concat, first, second, third, List.append_nil, handedOut_append, out]
  simp [handedOut]

def validOne : GpuSpanResult := { sequence := 1, reason := .valid }

/-- A result is published, a cancellation is refused, and the result is read. -/
def refusedCancel : List (Nat × TokenMove) :=
  [(0, .publish validOne), (0, .proceed false), (1, .cancel (2 ^ 63)), (2, .snapshot),
    (2, .proceed false), (2, .proceed false)]

/-- Once the counter has come around the first sequence is returned again, and a
cancellation of a sequence out of range cancels nothing. -/
theorem token_never_rolls_back_fails :
    (¬∀ moves, (handedOut (raceAfter moves).2).Nodup) ∧
      (raceAfter refusedCancel).2 = [.cancelled 1 (2 ^ 63) false, .readBegun 2,
        .readReturned 2 [validOne]] := by
  refine ⟨fun all => crowd_twice (n := 2 ^ 64 - 1) (by decide) (all _), by decide +kernel⟩

end EdvrPatch.Gpu
