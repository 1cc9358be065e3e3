import EdvrPatch.Timing.PerfSamples

/-! Runs of the performance history. The samples a stream retains are those of the
current session, each sequence once; a result that was offered and is done is not taken
again before the history is cleared. -/
namespace EdvrPatch.Timing

open NativePerfHistory

structure PerfSample where
  sequence : Nat
  source : NativeCpuSource
  entry : PerfEntry

namespace PerfObservation

def session (o : PerfObservation) : Nat × Nat := (o.t.generation, o.t.firstSequence)

def sample (math : PerfMath) (o : PerfObservation) (name : PerfName) : PerfSample :=
  ⟨o.sequence name, (cpuFigure o.t).source, o.entry math name⟩

end PerfObservation

variable (math : PerfMath)

def observed (past : List PerfObservation) : NativePerfHistory :=
  past.foldl (fun h o => h.perform math o) {}

def Sampled (past : List PerfObservation) (session : Nat × Nat) (name : PerfName)
    (x : PerfSample) : Prop :=
  ∃ o ∈ past, o.Live ∧ o.session = session ∧ x = o.sample math name

structure Retains (past : List PerfObservation) (h : NativePerfHistory) (name : PerfName)
    (kept : List PerfSample) : Prop where
  latest : (h.streams name).ring.latest = kept.map (·.entry)
  ascend : kept.Pairwise fun x y => y.sequence < x.sequence
  sampled : ∀ x ∈ kept, Sampled math past (h.generation, h.firstSequence) name x
  source : name = .applicationCpu → ∀ x ∈ kept, x.source = h.cpuSource

structure Law (past : List PerfObservation) (h : NativePerfHistory) : Prop where
  valid : ∀ name, (h.streams name).ring.Valid
  retains : ∀ name, ∃ kept, Retains math past h name kept ∧
    ∀ x ∈ kept, x.sequence ≤ (h.streams name).floor

variable {math} {past : List PerfObservation} {h : NativePerfHistory}

variable {name : PerfName}

theorem Retains.empty (empty : (h.streams name).ring.latest = []) : Retains math past h name [] :=
  ⟨empty, .nil, by simp, by simp⟩

theorem Law.clear (past : List PerfObservation) (h : NativePerfHistory) (generation first : Nat) :
    Law math past { h.clear with generation := generation, firstSequence := first } :=
  ⟨fun _ => Lib.Ring.Valid.restart (by decide), fun _ => ⟨[], .empty rfl, by simp⟩⟩

theorem Law.later (law : Law math past h) (o : PerfObservation) : Law math (past ++ [o]) h := by
  refine ⟨law.valid, fun name => ?_⟩
  obtain ⟨kept, retains, floor⟩ := law.retains name
  refine ⟨kept, { retains with sampled := fun x mem => ?_ }, floor⟩
  obtain ⟨p, among, rest⟩ := retains.sampled x mem
  exact ⟨p, List.mem_append_left _ among, rest⟩

theorem Law.enter (law : Law math past h) (t : TimedSnapshot) : Law math past (h.enter t) := by
  unfold NativePerfHistory.enter
  split
  · exact Law.clear past h _ _
  · exact law

theorem enter_session (h : NativePerfHistory) (t : TimedSnapshot) :
    (h.enter t).generation = t.generation ∧ (h.enter t).firstSequence = t.firstSequence := by
  unfold NativePerfHistory.enter
  split
  · exact ⟨rfl, rfl⟩
  · rename_i same
    simpa [not_or] using same

/-! ### One stream -/

variable {s : PerfStream} {sequence : Nat}

theorem hear_old (old : ¬s.floor < sequence) (restart : Bool) (entry : PerfEntry) :
    s.hear (.given restart sequence entry) = s :=
  if_pos (Nat.le_of_not_lt old)

theorem restarted (valid : s.ring.Valid) (restart : Bool) :
    (if restart then s.reset 0 else s).ring.Valid ∧
      (if restart then s.reset 0 else s).floor = s.floor ∧
      (if restart then s.reset 0 else s).ring.latest = if restart then [] else s.ring.latest := by
  cases restart with
  | false => exact ⟨valid, rfl, rfl⟩
  | true => exact ⟨Lib.Ring.Valid.restart (by decide), Nat.max_eq_left (Nat.zero_le _), rfl⟩

/-- A sample that is new goes first; the rest stays as far as there is room, unless the
stream starts again. -/
theorem hear_pushed (valid : s.ring.Valid) (new : s.floor < sequence) (restart : Bool)
    (entry : PerfEntry) :
    (s.hear (.given restart sequence entry)).ring.Valid ∧
      (s.hear (.given restart sequence entry)).ring.latest =
        entry :: (if restart then [] else s.ring.latest).take (kPerfCapacity - 1) ∧
      (s.hear (.given restart sequence entry)).floor = sequence ∧
      (s.hear (.given restart sequence entry)).ring.count ≠ 0 := by
  obtain ⟨baseValid, floor, latest⟩ := restarted valid restart
  rw [hear_new new]
  generalize (if restart then s.reset 0 else s) = base at baseValid floor latest
  rw [PerfStream.add, if_neg (by rw [floor]; exact Nat.not_le.mpr new), ← latest]
  have pushed := Lib.Ring.latest_push_take baseValid entry
  refine ⟨baseValid.push entry, pushed, rfl, fun none => ?_⟩
  have length := Lib.Ring.length_latest (base.ring.push entry)
  rw [pushed, none] at length
  cases length

theorem hear_valid (valid : s.ring.Valid) (told : Told) : (s.hear told).ring.Valid := by
  cases told with
  | refused consumed => exact Lib.Ring.Valid.restart (by decide)
  | given restart sequence entry =>
    by_cases new : s.floor < sequence
    · exact (hear_pushed valid new restart entry).1
    · rw [hear_old new]
      exact valid

theorem hear_floor (valid : s.ring.Valid) (told : Told) : s.floor ≤ (s.hear told).floor := by
  cases told with
  | refused consumed => exact Nat.le_max_left ..
  | given restart sequence entry =>
    by_cases new : s.floor < sequence
    · rw [(hear_pushed valid new restart entry).2.2.1]
      exact Nat.le_of_lt new
    · rw [hear_old new]

/-! ### One observation -/

variable {o : PerfObservation}

theorem Law.performed {h' : NativePerfHistory} (law : Law math past h) (mem : o ∈ past)
    (live : o.Live) (session : o.session = (h.generation, h.firstSequence))
    (does : Performed math o h h') : Law math past h' := by
  have pair : (h'.generation, h'.firstSequence) = (h.generation, h.firstSequence) := by
    rw [does.generation, does.firstSequence]
  refine ⟨fun name => ?_, fun name => ?_⟩
  · rw [does.streams name]
    exact hear_valid (law.valid name) _
  · obtain ⟨kept, retains, floor⟩ := law.retains name
    have streams := does.streams name
    cases isTold : told math h o name with
    | refused consumed =>
      rw [isTold] at streams
      exact ⟨[], .empty (by rw [streams]; rfl), by simp⟩
    | given restart sequence entry =>
      rw [isTold] at streams
      obtain ⟨isSequence, isEntry, -, isRestart⟩ := told_given math h o isTold
      by_cases new : (h.streams name).floor < sequence
      · obtain ⟨-, latest, isFloor, -⟩ := hear_pushed (law.valid name) new restart entry
        have among : ∀ x ∈ (if restart then [] else kept).take (kPerfCapacity - 1),
            restart = false ∧ x ∈ kept := by
          intro x mem
          have mem := List.mem_of_mem_take mem
          cases restart with
          | false => exact ⟨rfl, mem⟩
          | true => cases mem
        refine ⟨o.sample math name :: (if restart then [] else kept).take (kPerfCapacity - 1),
          ⟨?_, ?_, ?_, ?_⟩, ?_⟩
        · rw [streams, latest, retains.latest, List.map_cons, List.map_take, isEntry]
          cases restart <;> rfl
        · refine List.pairwise_cons.mpr ⟨fun x mem => ?_, ?_⟩
          · have := floor x (among x mem).2
            change x.sequence < o.sequence name
            omega
          · refine List.Pairwise.sublist (List.take_sublist _ _) ?_
            cases restart with
            | false => exact retains.ascend
            | true => exact .nil
        · intro x mem'
          rw [pair]
          rcases List.mem_cons.mp mem' with rfl | old
          · exact ⟨o, mem, live, session, rfl⟩
          · exact retains.sampled x (among x old).2
        · intro isName x mem'
          subst isName
          have source : h'.cpuSource = (cpuFigure o.t).source := by
            rw [does.cpuSource, isTold]
            exact if_pos new
          rw [source]
          rcases List.mem_cons.mp mem' with rfl | old
          · rfl
          · obtain ⟨goesOn, mem⟩ := among x old
            have same := isRestart rfl
            rw [goesOn] at same
            rw [retains.source rfl x mem]
            exact Eq.symm (by simpa using same)
        · intro x mem'
          rw [streams, isFloor]
          rcases List.mem_cons.mp mem' with rfl | old
          · exact Nat.le_of_eq isSequence.symm
          · have := floor x (among x old).2
            omega
      · have same : h'.streams name = h.streams name :=
          streams.trans (hear_old new restart entry)
        refine ⟨kept, ⟨by rw [same]; exact retains.latest, retains.ascend, ?_, ?_⟩, ?_⟩
        · rw [pair]
          exact retains.sampled
        · intro isName x mem'
          subst isName
          rw [does.cpuSource, isTold]
          dsimp only
          rw [if_neg new]
          exact retains.source rfl x mem'
        · rw [same]
          exact floor

theorem Law.perform (law : Law math past h) (o : PerfObservation) :
    Law math (past ++ [o]) (h.perform math o) := by
  by_cases live : o.Live
  · obtain ⟨generation, first⟩ := enter_session h o.t
    refine ((law.later o).enter o.t).performed (List.mem_append_right _ (List.mem_singleton.mpr rfl))
      live ?_ (perform_live math h o live)
    rw [generation, first]
    rfl
  · rw [perform_other math h o live]
    exact Law.clear _ h 0 0

theorem observed_concat (past : List PerfObservation) (o : PerfObservation) :
    observed math (past ++ [o]) = (observed math past).perform math o := by
  simp [observed]

theorem observed_law (math : PerfMath) (past : List PerfObservation) :
    Law math past (observed math past) := by
  induction past using List.reverseRecOn with
  | nil => exact Law.clear [] {} 0 0
  | append_singleton past o ih =>
    rw [observed_concat]
    exact ih.perform o

/-! ### What is not taken again -/

/-- The stream holds something after the observation, and not what it held before it; a
CPU figure of another source takes the place of all that was held. -/
def Adds (math : PerfMath) (h : NativePerfHistory) (o : PerfObservation) (name : PerfName) : Prop :=
  o.Live ∧ ((h.perform math o).streams name).ring.count ≠ 0 ∧
    (((h.perform math o).streams name).ring ≠ ((h.enter o.t).streams name).ring ∨
      name = .applicationCpu ∧ (h.perform math o).cpuSource ≠ (h.enter o.t).cpuSource)

theorem entered_of_session (session : o.session = (h.generation, h.firstSequence)) :
    h.enter o.t = h := by
  unfold PerfObservation.session at session
  simp only [Prod.mk.injEq] at session
  unfold NativePerfHistory.enter
  rw [if_neg (by simp [session.1, session.2])]

theorem perform_session (live : o.Live) :
    o.session = ((h.perform math o).generation, (h.perform math o).firstSequence) := by
  have does := perform_live math h o live
  obtain ⟨generation, first⟩ := enter_session h o.t
  rw [does.generation, does.firstSequence, generation, first]
  rfl

theorem Adds.beyond (adds : Adds math h o name) :
    ((h.enter o.t).streams name).floor < o.sequence name := by
  obtain ⟨live, some, changed⟩ := adds
  have performed := perform_live math h o live
  have streams := performed.streams name
  cases isTold : told math (h.enter o.t) o name with
  | refused consumed =>
    rw [isTold] at streams
    rw [streams] at some
    exact absurd rfl some
  | given restart sequence entry =>
    rw [isTold] at streams
    rw [← (told_given math _ o isTold).1]
    by_contra old
    rw [hear_old old] at streams
    obtain other | ⟨rfl, other⟩ := changed
    · exact other (congrArg PerfStream.ring streams)
    · have source := performed.cpuSource
      rw [isTold] at source
      exact other (source.trans (if_neg old))

theorem offered_floor (law : Law math past h) (live : o.Live) (offers : o.Offers name sequence)
    (done : ¬o.Pending name) : sequence ≤ ((h.perform math o).streams name).floor := by
  have streams := (perform_live math h o live).streams name
  cases isTold : told math (h.enter o.t) o name with
  | refused consumed =>
    rw [isTold] at streams
    rw [streams]
    exact Nat.le_trans (offered_consumed math _ o isTold offers done) (Nat.le_max_right ..)
  | given restart other entry =>
    rw [isTold] at streams
    obtain ⟨isSequence, -, valid, -⟩ := told_given math _ o isTold
    rw [streams, offered_given o valid offers, ← isSequence]
    by_cases new : ((h.enter o.t).streams name).floor < other
    · rw [(hear_pushed ((law.enter o.t).valid name) new restart entry).2.2.1]
    · rw [hear_old new]
      exact Nat.le_of_not_lt new

theorem perform_floor (law : Law math past h) (live : o.Live)
    (session : o.session = (h.generation, h.firstSequence)) (name : PerfName) :
    (h.streams name).floor ≤ ((h.perform math o).streams name).floor := by
  rw [(perform_live math h o live).streams name, entered_of_session session]
  exact hear_floor (law.valid name) _

theorem observed_floor {before mid : List PerfObservation} {session : Nat × Nat}
    (start : ((observed math before).generation, (observed math before).firstSequence) = session)
    (same : ∀ p ∈ mid, p.Live ∧ p.session = session) (name : PerfName) :
    ((observed math before).streams name).floor ≤
        ((observed math (before ++ mid)).streams name).floor ∧
      ((observed math (before ++ mid)).generation,
        (observed math (before ++ mid)).firstSequence) = session := by
  induction mid using List.reverseRecOn with
  | nil =>
    rw [List.append_nil]
    exact ⟨Nat.le_refl _, start⟩
  | append_singleton mid p ih =>
    obtain ⟨floor, still⟩ := ih fun q mem => same q (List.mem_append_left _ mem)
    obtain ⟨live, session⟩ := same p (List.mem_append_right _ (List.mem_singleton.mpr rfl))
    rw [← List.append_assoc, observed_concat]
    have rises := perform_floor (observed_law math (before ++ mid)) live (session.trans still.symm) name
    exact ⟨Nat.le_trans floor rises, (perform_session live).symm.trans session⟩

/-- The samples that each stream retains are of the current session, in the order of
their sequences, and those of the CPU figure are of one source. Until the history is
cleared, no sequence is added that was offered before and was not pending. -/
theorem perfHistory_law (math : PerfMath) (past : List PerfObservation) :
    (∀ name, ∃ kept, Retains math past (observed math past) name kept) ∧
    ∀ before o mid o' name sequence, past = before ++ o :: mid ++ [o'] →
      (∀ p ∈ o :: mid ++ [o'], p.Live ∧ p.session = o.session) →
      o.Offers name sequence → ¬o.Pending name →
      Adds math (observed math (before ++ o :: mid)) o' name → o'.sequence name ≠ sequence := by
  refine ⟨fun name => ?_, ?_⟩
  · obtain ⟨kept, retains, -⟩ := (observed_law math past).retains name
    exact ⟨kept, retains⟩
  · rintro before o mid o' name sequence - same offers done adds isSame
    have live := (same o (by simp)).1
    have low := offered_floor (observed_law math before) live offers done
    rw [← observed_concat] at low
    have start : o.session = (((observed math before).perform math o).generation,
        ((observed math before).perform math o).firstSequence) := perform_session live
    rw [← observed_concat] at start
    obtain ⟨rises, session⟩ := observed_floor start.symm
      (fun p mem => same p (List.mem_append_left _ (List.mem_cons_of_mem _ mem))) name
    rw [← List.append_cons] at rises session
    have beyond := adds.beyond
    rw [entered_of_session ((same o' (by simp)).2.trans session.symm), isSame] at beyond
    omega

def perfMath : PerfMath := ⟨fun a _ => a, fun _ => 0⟩

def gpuResult (native : Bool) (reason : Gpu.GpuSpanReason) : PerfObservation where
  native := native
  t := { active := true, generation := 1, firstSequence := 1 }
  g := { enabled := true, haveResult := true, result := { sequence := 5, reason := reason }
         capturedAtMs := 900 }
  now := 1000

/-- The result is refused, and is not taken when it comes again as a valid one. -/
theorem perfHistory_law_sample :
    ¬Adds perfMath (observed perfMath [gpuResult true .incomplete]) (gpuResult true .valid)
      .producer := by
  intro adds
  have same : ∀ p ∈ [gpuResult true .incomplete] ++ [gpuResult true .valid],
      p.Live ∧ p.session = (gpuResult true .incomplete).session := by
    intro p mem
    rcases List.mem_cons.mp mem with rfl | mem
    · exact ⟨⟨rfl, rfl, by decide, by decide⟩, rfl⟩
    · rw [List.mem_singleton.mp mem]
      exact ⟨⟨rfl, rfl, by decide, by decide⟩, rfl⟩
  exact (perfHistory_law perfMath _).2 [] (gpuResult true .incomplete) [] (gpuResult true .valid)
    .producer 5 rfl same ⟨rfl, rfl⟩ (by rintro ⟨⟨⟩, -⟩) adds rfl

/-- An observation that is not native clears the history, and what was refused before is
taken after it in the same session. -/
theorem perfHistory_forgets : ¬ ∀ (past : List PerfObservation) (before : List PerfObservation)
    (o : PerfObservation) (mid : List PerfObservation) (o' : PerfObservation) (name : PerfName)
    (sequence : Nat), past = before ++ o :: mid ++ [o'] → o.Live → o.Offers name sequence →
      ¬o.Pending name → ¬Adds perfMath (observed perfMath before) o name →
      Adds perfMath (observed perfMath (before ++ o :: mid)) o' name →
      o'.sequence name ≠ sequence := by
  intro claim
  refine claim _ [] (gpuResult true .incomplete) [gpuResult false .valid] (gpuResult true .valid)
    .producer 5 rfl ⟨rfl, rfl, by decide, by decide⟩ ⟨rfl, rfl⟩ (by rintro ⟨⟨⟩, -⟩) ?_ ?_ rfl
  · rintro ⟨-, some, -⟩
    exact some (by decide)
  · refine ⟨⟨rfl, rfl, by decide, by decide⟩, by decide, .inl fun same => ?_⟩
    exact absurd (congrArg Lib.Ring.count same) (by decide)

end EdvrPatch.Timing
