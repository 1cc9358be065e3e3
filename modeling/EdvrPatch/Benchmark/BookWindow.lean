import EdvrPatch.Benchmark.BookRun
import EdvrPatch.Benchmark.Capacity

/-! A whole window, from the call that opens the sample: as long as it is not aborted,
every observation that is delivered is written down in the book. -/
namespace EdvrPatch.Benchmark

open Lib NativeBenchmarkCollector

def NativeBenchmarkObservation.cpuEvents (s : NativeBenchmarkObservation) : List Event :=
  if s.cpuSequence ≠ 0 then [.cpu s.cpuPart] else []

def NativeBenchmarkObservation.gpuEvents (s : NativeBenchmarkObservation) : List Event :=
  if s.gpuSequence ≠ 0 then [.gpu s.gpuPart] else []

/-- What is delivered in a call, in the order in which it is taken in. -/
def BenchmarkTick.events (t : BenchmarkTick) : List Event := t.sample.cpuEvents ++ t.sample.gpuEvents

def eventsOf (calls : List BenchmarkTick) : List Event := calls.flatMap BenchmarkTick.events

def collectorRun (c : NativeBenchmarkCollector) (calls : List BenchmarkTick) : NativeBenchmarkCollector :=
  calls.foldl (fun c t => c.observe t.sample t.nowMs) c

/-- Every call that delivers something does so while the sample or the drain is on. -/
def TakesAll : NativeBenchmarkCollector → List BenchmarkTick → Prop
  | _, [] => True
  | c, t :: rest =>
    (t.events ≠ [] → c.scope = t.sample.scope ∧ (c.phase = .sampling ∨ c.phase = .drain)) ∧
      TakesAll (c.observe t.sample t.nowMs) rest

instance decidableTakesAll : (c : NativeBenchmarkCollector) → (calls : List BenchmarkTick) →
    Decidable (TakesAll c calls)
  | _, [] => isTrue trivial
  | c, t :: rest =>
    have := decidableTakesAll (c.observe t.sample t.nowMs) rest
    inferInstanceAs (Decidable (_ ∧ _))

section

variable {start : Nat} {evs : List Event} {c : NativeBenchmarkCollector} {t : BenchmarkTick}
  {s : NativeBenchmarkObservation}

theorem find_overflow (sequence : Nat) (create : Bool) (full : c.overflow = true) :
    (c.find sequence create).2.overflow = true := by
  unfold find
  split
  · exact full
  split
  · exact full
  split
  · split
    · exact full
    · exact full
  · rfl

theorem addGpu_overflow (full : c.overflow = true) : (c.addGpu s).overflow = true := by
  have still := find_overflow s.gpuSequence false full
  unfold addGpu
  split
  · exact full
  generalize c.find s.gpuSequence false = r at still ⊢
  obtain ⟨_ | i, d⟩ := r
  · dsimp only at still ⊢
    split
    · exact still
    · exact addStray_overflow still
  · dsimp only at still ⊢
    split
    · exact still
    · exact still

theorem NativeBenchmarkCollector.Keeps.addCpuEvents (k : Keeps start evs c) (once : Once (evs ++ s.cpuEvents))
    (named : Named (evs ++ s.cpuEvents)) (fits : (c.addCpu s).overflow = false) :
    ∃ entries orphans, c.addCpu s = c.withTables entries orphans ∧
      Keeps start (evs ++ s.cpuEvents) (c.addCpu s) := by
  unfold NativeBenchmarkObservation.cpuEvents at once named ⊢
  split at once
  · rename_i some
    rw [if_pos some] at named ⊢
    exact k.addCpu once named fits
  · rename_i none
    have same : c.addCpu s = c := by
      unfold NativeBenchmarkCollector.addCpu
      rw [if_pos (.inl (not_not.mp none))]
    rw [if_neg none, List.append_nil, same]
    exact ⟨c.entries, c.orphans, rfl, k⟩

theorem NativeBenchmarkCollector.Keeps.addGpuEvents (k : Keeps start evs c) (pos : 0 < start)
    (once : Once (evs ++ s.gpuEvents)) (named : Named (evs ++ s.gpuEvents))
    (fits : (c.addGpu s).overflow = false) :
    ∃ entries orphans, c.addGpu s = c.withTables entries orphans ∧
      Keeps start (evs ++ s.gpuEvents) (c.addGpu s) := by
  unfold NativeBenchmarkObservation.gpuEvents at once named ⊢
  split at once
  · rename_i some
    rw [if_pos some] at named ⊢
    exact k.addGpu pos once named fits
  · rename_i none
    have same : c.addGpu s = c := by
      unfold NativeBenchmarkCollector.addGpu
      rw [if_pos (.inl (not_not.mp none))]
    rw [if_neg none, List.append_nil, same]
    exact ⟨c.entries, c.orphans, rfl, k⟩

theorem NativeBenchmarkCollector.Keeps.add (k : Keeps start evs c) (pos : 0 < start) (once : Once (evs ++ t.events))
    (named : Named (evs ++ t.events)) (fits : ((c.addCpu t.sample).addGpu t.sample).overflow = false) :
    ∃ entries orphans, (c.addCpu t.sample).addGpu t.sample = c.withTables entries orphans ∧
      Keeps start (evs ++ t.events) ((c.addCpu t.sample).addGpu t.sample) := by
  have early : (c.addCpu t.sample).overflow = false := by
    by_contra full
    rw [addGpu_overflow (by simpa using full)] at fits
    cases fits
  unfold BenchmarkTick.events at once named ⊢
  rw [← List.append_assoc] at once named ⊢
  obtain ⟨entries, orphans, first, kept⟩ := k.addCpuEvents once.left named.left early
  obtain ⟨entries', orphans', second, kept'⟩ := kept.addGpuEvents pos once named fits
  refine ⟨entries', orphans', ?_, kept'⟩
  rw [second, first]
  rfl

structure Clean (start : Nat) (evs : List Event) (c : NativeBenchmarkCollector) : Prop where
  keeps : Keeps start evs c
  bound : c.scope ≠ 0
  lost : c.transportLost = false
  droppedCpu : c.droppedCpu = 0
  droppedGpu : c.droppedGpu = 0

def Running (c : NativeBenchmarkCollector) : Prop := c.phase = .sampling ∨ c.phase = .drain

def Ends (start : Nat) (evs : List Event) (c : NativeBenchmarkCollector) : Prop :=
  c.phase = .complete ∧ (c.abortReason = .completed → Clean start evs c)

theorem finish_aborts {reason : AbortReason} (aborts : reason ≠ .completed) (c : NativeBenchmarkCollector)
    (nowMs : Nat) : Ends start evs (c.finish nowMs reason) := by
  refine ⟨rfl, fun completed => ?_⟩
  unfold finish at completed
  rw [if_neg fun both => aborts both.1] at completed
  exact absurd completed aborts

namespace Clean

theorem finish (h : Clean start evs c) (nowMs : Nat) : Ends start evs (c.finish nowMs .completed) := by
  refine ⟨rfl, fun _ => ?_⟩
  have completed : (if AbortReason.completed = .completed ∧ c.transportLost = true then AbortReason.transportLoss
      else .completed) = .completed := if_neg fun both => by rw [h.lost] at both; cases both.2
  unfold NativeBenchmarkCollector.finish
  rw [completed, h.keeps.fits]
  exact { h with keeps := { h.keeps with fits := rfl } }

theorem drains (h : Clean start evs c) (running : Running c) (due : Prop) [Decidable due] :
    Clean start evs (if due then { c with phase := .drain } else c) ∧
      Running (if due then { c with phase := .drain } else c) := by
  split
  · exact ⟨{ h with keeps := { h.keeps with } }, .inr rfl⟩
  · exact ⟨h, running⟩

theorem finishes (h : Clean start evs c) (running : Running c) (isOver : Prop) [Decidable isOver] (nowMs : Nat) :
    (Clean start evs (if isOver then c.finish nowMs .completed else c) ∧
      Running (if isOver then c.finish nowMs .completed else c)) ∨
      Ends start evs (if isOver then c.finish nowMs .completed else c) := by
  split
  · exact .inr (h.finish nowMs)
  · exact .inl ⟨h, running⟩

theorem takeIn (h : Clean start evs c) (running : Running c) (pos : 0 < start)
    (once : Once (evs ++ t.events)) (named : Named (evs ++ t.events)) :
    (Clean start (evs ++ t.events) (c.takeIn t.sample t.nowMs) ∧ Running (c.takeIn t.sample t.nowMs)) ∨
      Ends start (evs ++ t.events) (c.takeIn t.sample t.nowMs) := by
  unfold NativeBenchmarkCollector.takeIn
  dsimp only
  split
  · exact .inr (finish_aborts (by decide) _ _)
  · rename_i fits
    obtain ⟨entries, orphans, equation, keeps⟩ := h.keeps.add pos once named (by simpa using fits)
    rw [equation] at keeps ⊢
    have clean : Clean start (evs ++ t.events) (c.withTables entries orphans) := { h with keeps := keeps }
    obtain ⟨moved, still⟩ := clean.drains running
      ((c.withTables entries orphans).phase = .sampling ∧
        elapsed t.nowMs (c.withTables entries orphans).sampleEndMs 0)
    exact moved.finishes still _ _

theorem observeNone (h : Clean start evs c) (running : Running c) (nowMs : Nat) :
    (Clean start evs (c.observeNone nowMs) ∧ Running (c.observeNone nowMs)) ∨
      Ends start evs (c.observeNone nowMs) := by
  unfold NativeBenchmarkCollector.observeNone
  rw [if_neg h.bound]
  split
  · rw [if_pos (show c.phase = .sampling ∨ c.phase = .drain from running)]
    exact .inr (finish_aborts (by decide) _ _)
  · have warm : ¬(c.phase = .warmup ∧ elapsed nowMs c.warmupStartMs kWarmupMs = true) := by
      rintro ⟨isWarm, _⟩
      rcases running with isPhase | isPhase <;> rw [isPhase] at isWarm <;> cases isWarm
    have ticked : Clean start evs { c with lastNowMs := nowMs } := { h with keeps := { h.keeps with } }
    dsimp only
    rw [if_neg warm]
    obtain ⟨moved, still⟩ := ticked.drains running (c.phase = .sampling ∧ elapsed nowMs c.sampleEndMs 0)
    exact moved.finishes still _ _

theorem observe (h : Clean start evs c) (running : Running c) (pos : 0 < start)
    (once : Once (evs ++ t.events)) (named : Named (evs ++ t.events))
    (taken : t.events ≠ [] → c.scope = t.sample.scope) :
    (Clean start (evs ++ t.events) (c.observe t.sample t.nowMs) ∧ Running (c.observe t.sample t.nowMs)) ∨
      Ends start (evs ++ t.events) (c.observe t.sample t.nowMs) := by
  have incomplete : c.phase ≠ .complete := by
    rcases running with isPhase | isPhase <;> rw [isPhase] <;> decide
  by_cases isScope : c.scope = t.sample.scope
  · by_cases clock : c.lastNowMs ≤ t.nowMs
    · rw [observe_open running isScope h.bound clock]
      have ticked : Clean start evs { c with lastNowMs := t.nowMs } := { h with keeps := { h.keeps with } }
      exact ticked.takeIn running pos once named
    · refine .inr ?_
      have same : (if c.scope ≠ t.sample.scope then NativeBenchmarkCollector.start t.sample.scope t.nowMs
          else c) = c :=
        if_neg fun other => other isScope
      unfold NativeBenchmarkCollector.observe
      rw [if_neg incomplete, if_neg (by rw [← isScope]; exact h.bound), if_neg (fun other => other.1 isScope)]
      simp only [same]
      rw [if_pos (Nat.not_le.mp clock), if_pos (show c.phase = .sampling ∨ c.phase = .drain from running)]
      exact finish_aborts (by decide) _ _
  · have nothing : t.events = [] := by
      by_contra some
      exact isScope (taken some)
    rw [nothing, List.append_nil]
    unfold NativeBenchmarkCollector.observe
    rw [if_neg incomplete]
    split
    · exact h.observeNone running _
    · rw [if_pos ⟨isScope, running⟩]
      exact .inr (finish_aborts (by decide) _ _)

end Clean

theorem eventsOf_cons (t : BenchmarkTick) (rest : List BenchmarkTick) :
    eventsOf (t :: rest) = t.events ++ eventsOf rest := List.flatMap_cons

theorem TakesAll.done {calls : List BenchmarkTick} (takes : TakesAll c calls) (complete : c.phase = .complete) :
    eventsOf calls = [] := by
  induction calls with
  | nil => rfl
  | cons t rest ih =>
    obtain ⟨taken, later⟩ := takes
    have same : c.observe t.sample t.nowMs = c := observe_complete complete [t]
    rw [same] at later
    rw [eventsOf_cons, ih later, List.append_nil]
    by_contra some
    rcases (taken some).2 with isPhase | isPhase <;> rw [isPhase] at complete <;> cases complete

theorem named_cpuEvents (s : NativeBenchmarkObservation) : Named s.cpuEvents := by
  unfold NativeBenchmarkObservation.cpuEvents
  split
  · rename_i some
    refine ⟨fun p mem => ?_, fun u mem => nomatch List.mem_singleton.mp mem⟩
    cases List.mem_singleton.mp mem
    exact some
  · exact ⟨nofun, nofun⟩

theorem named_gpuEvents (s : NativeBenchmarkObservation) : Named s.gpuEvents := by
  unfold NativeBenchmarkObservation.gpuEvents
  split
  · rename_i some
    refine ⟨fun p mem => (nomatch List.mem_singleton.mp mem), fun u mem => ?_⟩
    cases List.mem_singleton.mp mem
    exact some
  · exact ⟨nofun, nofun⟩

theorem NativeBenchmarkCollector.Named.append {evs' : List Event} (named : Named evs) (named' : Named evs') :
    Named (evs ++ evs') :=
  ⟨fun p mem => (List.mem_append.mp mem).elim (named.1 p) (named'.1 p),
    fun u mem => (List.mem_append.mp mem).elim (named.2 u) (named'.2 u)⟩

theorem Clean.run {calls : List BenchmarkTick} (h : Clean start evs c) (running : Running c) (pos : 0 < start)
    (once : Once (evs ++ eventsOf calls)) (named : Named evs) (takes : TakesAll c calls) :
    (Clean start (evs ++ eventsOf calls) (collectorRun c calls) ∧ Running (collectorRun c calls)) ∨
      Ends start (evs ++ eventsOf calls) (collectorRun c calls) := by
  induction calls generalizing c evs with
  | nil =>
    refine .inl ⟨?_, running⟩
    rw [show eventsOf [] = [] from rfl, List.append_nil]
    exact h
  | cons t rest ih =>
    obtain ⟨taken, later⟩ := takes
    rw [eventsOf_cons, ← List.append_assoc] at once ⊢
    have more := named.append ((named_cpuEvents t.sample).append (named_gpuEvents t.sample))
    rcases h.observe running pos once.left more fun some => (taken some).1 with ⟨clean, still⟩ | ends
    · exact ih clean still once more later
    · rw [later.done ends.1, List.append_nil]
      refine .inr ?_
      rw [show collectorRun c (t :: rest) = c.observe t.sample t.nowMs from observe_complete ends.1 rest]
      exact ends

theorem find_lost (c : NativeBenchmarkCollector) (sequence : Nat) (create : Bool) :
    (c.find sequence create).2.transportLost = c.transportLost := by
  unfold find
  split
  · rfl
  split
  · rfl
  split
  · split <;> rfl
  · rfl

theorem findOrphan_lost (c : NativeBenchmarkCollector) (sequence : Nat) (create : Bool) :
    (c.findOrphan sequence create).2.transportLost = c.transportLost := by
  unfold findOrphan
  split
  · rfl
  split
  · rfl
  split
  · split <;> rfl
  · rfl

theorem addCpu_lost (c : NativeBenchmarkCollector) (s : NativeBenchmarkObservation) :
    (c.addCpu s).transportLost = c.transportLost := by
  have found := find_lost c s.cpuSequence true
  unfold addCpu
  split
  · rfl
  generalize c.find s.cpuSequence true = r at found ⊢
  obtain ⟨_ | i, d⟩ := r
  · exact found
  dsimp only at found ⊢
  split
  · exact found
  · rename_i unseen
    have orphan := findOrphan_lost (d.setEntry i { d.entries i with
      cpuSeen := true, atMs := s.cpuAtMs, cpuValid := s.cpuValid && validValue s.cpuMs
      cpuMs := if s.cpuValid && validValue s.cpuMs then s.cpuMs else 0, admitted := true }) s.cpuSequence false
    generalize (d.setEntry i _).findOrphan s.cpuSequence false = q at orphan ⊢
    obtain ⟨_ | j, e⟩ := q
    · exact orphan.trans found
    · exact orphan.trans found

theorem addGpu_lost (c : NativeBenchmarkCollector) (s : NativeBenchmarkObservation) :
    (c.addGpu s).transportLost = c.transportLost := by
  have found := find_lost c s.gpuSequence false
  unfold addGpu
  split
  · rfl
  generalize c.find s.gpuSequence false = r at found ⊢
  obtain ⟨_ | i, d⟩ := r
  · dsimp only at found ⊢
    split
    · exact found
    · have orphan := findOrphan_lost d s.gpuSequence true
      generalize d.findOrphan s.gpuSequence true = q at orphan ⊢
      obtain ⟨_ | j, e⟩ := q
      · exact orphan.trans found
      · dsimp only
        split
        · exact orphan.trans found
        · exact orphan.trans found
  · dsimp only at found ⊢
    split
    · exact found
    · exact found

theorem moves_lost (c : NativeBenchmarkCollector) (due isOver : Prop) [Decidable due] [Decidable isOver] (nowMs : Nat) :
    (if isOver then (if due then { c with phase := .drain } else c).finish nowMs .completed
      else if due then { c with phase := .drain } else c).transportLost = c.transportLost := by
  split <;> split <;> rfl

theorem takeIn_lost (c : NativeBenchmarkCollector) (s : NativeBenchmarkObservation) (nowMs : Nat) :
    (c.takeIn s nowMs).transportLost = c.transportLost := by
  have added : ((c.addCpu s).addGpu s).transportLost = c.transportLost :=
    (addGpu_lost _ s).trans (addCpu_lost c s)
  unfold takeIn
  dsimp only
  split
  · exact added
  · exact (moves_lost ((c.addCpu s).addGpu s) _ _ nowMs).trans added

theorem observe_lost (kept : c.transportLost = false) (s : NativeBenchmarkObservation) (nowMs : Nat) :
    (c.observe s nowMs).transportLost = false := by
  unfold observe
  split
  · exact kept
  split
  · unfold observeNone
    split
    · exact kept
    split
    · split <;> exact kept
    · dsimp only
      rw [moves_lost]
      split <;> exact kept
  split
  · exact kept
  dsimp only
  have begun : (if c.scope ≠ s.scope then NativeBenchmarkCollector.start s.scope nowMs else c).transportLost =
      false := by
    split
    · rfl
    · exact kept
  generalize (if c.scope ≠ s.scope then NativeBenchmarkCollector.start s.scope nowMs else c) = d at begun ⊢
  split
  · split <;> exact begun
  split
  · split
    · rw [takeIn_lost]
      exact begun
    · exact begun
  split
  · rw [takeIn_lost]
    exact begun
  · exact begun

theorem collectorAfter_lost (feed : List BenchmarkTick) : (collectorAfter feed).transportLost = false := by
  induction feed using List.reverseRecOn with
  | nil => rfl
  | append_singleton feed t ih =>
    unfold collectorAfter at ih ⊢
    rw [List.foldl_append]
    exact observe_lost ih t.sample t.nowMs

theorem warmup_le {now before : Nat} (past : elapsed now before kWarmupMs = true) : kWarmupMs ≤ now := by
  simp only [elapsed, Bool.and_eq_true, decide_eq_true_eq] at past
  omega

theorem observe_opening (warming : c.phase = .warmup)
    (opens : (c.observe t.sample t.nowMs).phase ≠ .warmup) :
    c.scope ≠ 0 ∧ kWarmupMs ≤ t.nowMs ∧
      c.observe t.sample t.nowMs = (c.startSampling t.nowMs).observe t.sample t.nowMs := by
  have incomplete : c.phase ≠ .complete := by
    rw [warming]
    decide
  have idle : ¬(c.phase = .sampling ∨ c.phase = .drain) := by
    rw [warming]
    decide
  by_cases none : t.sample.scope = 0
  · have equation : c.observe t.sample t.nowMs = c.observeNone t.nowMs := by
      unfold observe
      rw [if_neg incomplete, if_pos none]
    have equation' : (c.startSampling t.nowMs).observe t.sample t.nowMs =
        (c.startSampling t.nowMs).observeNone t.nowMs := by
      unfold observe
      rw [if_neg nofun, if_pos none]
    rw [equation] at opens ⊢
    rw [equation']
    unfold observeNone at opens ⊢
    by_cases unbound : c.scope = 0
    · rw [if_pos unbound] at opens
      exact absurd warming opens
    by_cases reversed : t.nowMs < c.lastNowMs
    · rw [if_neg unbound, if_pos reversed, if_neg idle] at opens
      exact absurd warming opens
    rw [if_neg unbound, if_neg reversed] at opens ⊢
    by_cases past : elapsed t.nowMs c.warmupStartMs kWarmupMs = true
    · have isPast : c.phase = .warmup ∧ elapsed t.nowMs c.warmupStartMs kWarmupMs = true := ⟨warming, past⟩
      refine ⟨unbound, warmup_le past, ?_⟩
      simp only [if_pos isPast]
      rw [if_neg (show (c.startSampling t.nowMs).scope ≠ 0 from unbound),
        if_neg (show ¬t.nowMs < (c.startSampling t.nowMs).lastNowMs from Nat.lt_irrefl t.nowMs)]
      rfl
    · have early : ¬(c.phase = .warmup ∧ elapsed t.nowMs c.warmupStartMs kWarmupMs = true) :=
        fun both => past both.2
      have unended : ¬(c.phase = .sampling ∧ elapsed t.nowMs c.sampleEndMs 0 = true) :=
        fun both => idle (.inl both.1)
      simp only [if_neg early, if_neg unended] at opens
      rw [if_neg fun both => idle (.inr both.1)] at opens
      exact absurd warming opens
  · have shifted : ¬(c.scope ≠ t.sample.scope ∧ (c.phase = .sampling ∨ c.phase = .drain)) :=
      fun both => idle both.2
    by_cases isScope : c.scope = t.sample.scope
    · have same : (if c.scope ≠ t.sample.scope then NativeBenchmarkCollector.start t.sample.scope t.nowMs
          else c) = c := if_neg fun other => other isScope
      have unbound : c.scope ≠ 0 := by
        rw [isScope]
        exact none
      have equation' := observe_open (c := c.startSampling t.nowMs) (t := t) (.inl rfl) isScope unbound
        (Nat.le_refl t.nowMs)
      rw [equation']
      unfold observe at opens ⊢
      rw [if_neg incomplete, if_neg none, if_neg shifted] at opens ⊢
      simp only [same] at opens ⊢
      by_cases reversed : t.nowMs < c.lastNowMs
      · rw [if_pos reversed, if_neg idle] at opens
        exact absurd warming opens
      rw [if_neg reversed, if_pos warming] at opens ⊢
      by_cases past : elapsed t.nowMs c.warmupStartMs kWarmupMs = true
      · rw [if_pos past]
        exact ⟨unbound, warmup_le past, rfl⟩
      · rw [if_neg past] at opens
        exact absurd warming opens
    · have fresh : ¬elapsed t.nowMs (NativeBenchmarkCollector.start t.sample.scope t.nowMs).warmupStartMs
          kWarmupMs = true := by
        simp [elapsed, kWarmupMs, NativeBenchmarkCollector.start]
      have begun : (if c.scope ≠ t.sample.scope then NativeBenchmarkCollector.start t.sample.scope t.nowMs
          else c) = NativeBenchmarkCollector.start t.sample.scope t.nowMs := if_pos isScope
      unfold observe at opens
      rw [if_neg incomplete, if_neg none, if_neg shifted] at opens
      simp only [begun] at opens
      rw [if_neg (show ¬t.nowMs < (NativeBenchmarkCollector.start t.sample.scope t.nowMs).lastNowMs from
          Nat.not_lt_zero _), if_pos (show (NativeBenchmarkCollector.start t.sample.scope t.nowMs).phase = .warmup
          from rfl), if_neg fresh] at opens
      exact absurd rfl opens

end

end EdvrPatch.Benchmark
