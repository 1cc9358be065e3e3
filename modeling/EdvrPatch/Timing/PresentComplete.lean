import EdvrPatch.Timing.PresentTrace

/-! A trace of Presents without overflow is complete, over fewer than `2 ^ 64 - 1` noted
Presents. Each Present that got a token is in the table or was noted; each that was
noted is in the ring, or is well formed and ended no later than the ring remembers. -/
namespace EdvrPatch.Timing

/-! ### The table -/

theorem replaceFirst_some {α : Type} {test : α → Bool} {new : α} {l l' : List α}
    (replaced : replaceFirst test new l = some l') :
    ∃ before x after, l = before ++ x :: after ∧ test x ∧ l' = before ++ new :: after ∧
      l.find? test = some x := by
  induction l generalizing l' with
  | nil => cases replaced
  | cons x rest ih =>
    unfold replaceFirst at replaced
    split at replaced
    · rename_i here
      cases replaced
      exact ⟨[], x, rest, rfl, here, rfl, by simp [here]⟩
    · rename_i other
      obtain ⟨rest', later, rfl⟩ := Option.map_eq_some_iff.mp replaced
      obtain ⟨before, y, after, isRest, here, isNew, found⟩ := ih later
      refine ⟨x :: before, y, after, by rw [isRest]; rfl, here, by rw [isNew]; rfl, ?_⟩
      rw [List.find?_cons_of_neg other]
      exact found

theorem replaceFirst_isSome {α : Type} (test : α → Bool) (new : α) (l : List α) :
    (replaceFirst test new l).isSome = l.any test := by
  induction l with
  | nil => rfl
  | cons x rest ih =>
    unfold replaceFirst
    split
    · rename_i here
      simp [here]
    · rename_i other
      simp [other, ih]

def running (actives : List ActivePresent) : List (UInt64 × Nat) :=
  (actives.filter (·.token != 0)).map fun active => (active.token, active.beginUs)

theorem running_append (before after : List ActivePresent) :
    running (before ++ after) = running before ++ running after := by
  simp [running]

theorem running_cons_free (active : ActivePresent) (isFree : active.token = 0)
    (rest : List ActivePresent) : running (active :: rest) = running rest := by
  simp [running, isFree]

theorem running_cons_busy (active : ActivePresent) (isBusy : active.token ≠ 0)
    (rest : List ActivePresent) :
    running (active :: rest) = (active.token, active.beginUs) :: running rest := by
  simp [running, isBusy]

theorem drawToken_ne_zero (next : UInt64) : (drawToken next).1 ≠ 0 := by
  unfold drawToken
  split
  · rename_i isZero
    rw [isZero]
    decide
  · rename_i nonzero
    exact nonzero

/-! ### The ring -/

theorem historySlot_ofNat {k : Nat} (small : k + 1 < 2 ^ 64) :
    historySlot (UInt64.ofNat (k + 1)) = k % 64 := by
  have isSub : UInt64.ofNat (k + 1) - 1 = UInt64.ofNat k := by
    rw [UInt64.ofNat_add]
    exact UInt64.add_sub_cancel ..
  rw [historySlot, isSub, UInt64.toNat_mod,
    UInt64.toNat_ofNat_of_lt' (show k < 2 ^ 64 by omega)]
  rfl

def Tells (s : PresentState) (span : EdvrNativePresentSpan) : Prop :=
  (malformedPresent span → s.presentOverwrittenMalformed) ∧
    (malformedPresent span = false → span.endUs ≤ s.presentOverwrittenMaxEndUs)

structure Remembers (spans : List EdvrNativePresentSpan) (s : PresentState) : Prop where
  total : s.presentTotalObserved = UInt64.ofNat spans.length
  ring : ∀ k span, spans[k]? = some span → spans.length ≤ k + 64 →
    s.presentHistory (k % 64) = ⟨UInt64.ofNat (k + 1), span⟩
  blank : ∀ j, spans.length ≤ j → j < 64 → (s.presentHistory j).ordinal = 0
  lost : ∀ k span, spans[k]? = some span → k + 64 < spans.length → Tells s span

theorem overwrite_tells (s : PresentState) {old : PresentRecord} (used : old.ordinal ≠ 0) :
    Tells (overwrite s old) old.span := by
  unfold overwrite
  rw [if_neg used]
  split
  · rename_i malformed
    exact ⟨fun _ => rfl, fun wellFormed => absurd malformed (by simp [wellFormed])⟩
  · rename_i wellFormed
    exact ⟨fun malformed => absurd malformed wellFormed, fun _ => Nat.le_max_right ..⟩

variable {s : PresentState}

theorem Tells.overwrite {span : EdvrNativePresentSpan} (h : Tells s span) (old : PresentRecord) :
    Tells (overwrite s old) span := by
  unfold Timing.overwrite
  split
  · exact h
  · split
    · exact ⟨fun _ => rfl, h.2⟩
    · exact ⟨h.1, fun wellFormed => Nat.le_trans (h.2 wellFormed) (Nat.le_max_left ..)⟩

theorem keepSpan_actives (s : PresentState) (span : EdvrNativePresentSpan) :
    (keepSpan s span).activePresents = s.activePresents := by
  change (overwrite s _).activePresents = _
  unfold overwrite
  split
  · rfl
  · split <;> rfl

theorem keepSpan_saturated (s : PresentState) (span : EdvrNativePresentSpan) :
    (keepSpan s span).activePresentSaturated = s.activePresentSaturated := by
  change (overwrite s _).activePresentSaturated = _
  unfold overwrite
  split
  · rfl
  · split <;> rfl

theorem Remembers.keepSpan {spans : List EdvrNativePresentSpan} (h : Remembers spans s)
    (span : EdvrNativePresentSpan) (few : spans.length + 1 < 2 ^ 64) :
    Remembers (spans ++ [span]) (keepSpan s span) := by
  have isNext : s.presentTotalObserved + 1 = UInt64.ofNat (spans.length + 1) := by
    rw [h.total, UInt64.ofNat_add]
    rfl
  have length : (spans ++ [span]).length = spans.length + 1 := by simp
  have earlier : ∀ {k other}, (spans ++ [span])[k]? = some other → k < spans.length →
      spans[k]? = some other := by
    intro k other at' small
    rwa [List.getElem?_append_left small] at at'
  unfold Timing.keepSpan
  rw [isNext]
  dsimp only
  rw [historySlot_ofNat few]
  refine ⟨by rw [length], fun k other at' near => ?_, fun j past small => ?_, fun k other at' gone => ?_⟩
  · rw [length] at near
    dsimp only
    by_cases last : k = spans.length
    · subst last
      rw [List.getElem?_concat_length] at at'
      rw [Function.update_self, Option.some.inj at']
    · have := (List.getElem?_eq_some_iff.mp at').1
      rw [Function.update_of_ne (by omega)]
      exact h.ring k other (earlier at' (by omega)) (by omega)
  · rw [length] at past
    dsimp only
    rw [Function.update_of_ne (by omega)]
    exact h.blank j (by omega) small
  · rw [length] at gone
    change Tells (overwrite s (s.presentHistory (spans.length % 64))) other
    by_cases now : k + 64 = spans.length
    · -- The slot holds the span that was noted 64 spans ago.
      have held := h.ring k other (earlier at' (by omega)) (by omega)
      rw [show spans.length % 64 = k % 64 by omega, held]
      refine overwrite_tells s fun isZero => ?_
      have := UInt64.toNat_ofNat_of_lt' (show k + 1 < 2 ^ 64 by omega)
      dsimp only at isZero
      rw [isZero] at this
      cases this
    · exact (h.lost k other (earlier at' (by omega)) (by omega)).overwrite _

/-! ### Runs -/

def PresentRun.spans (run : PresentRun) : List EdvrNativePresentSpan := run.noted.map Prod.snd

/-- The Presents that were noted, by the times their spans begin at. -/
def PresentRun.finished (run : PresentRun) : List (UInt64 × Nat) :=
  run.noted.map fun entry => (entry.1, entry.2.beginUs)

structure Follows (run : PresentRun) : Prop where
  remembers : Remembers run.spans run.state
  present : run.begun.Perm (running run.state.activePresents ++ run.finished)
  saturated : run.refused ≠ [] → run.state.activePresentSaturated

theorem begin_cases (s : PresentState) (device beginUs thread : Nat) :
    nativeTimingPresentBegin s device beginUs thread = (s, 0) ∧
        ¬(device ≠ 0 ∧ beginUs ≠ 0 ∧ thread ≠ 0 ∧ device = s.device) ∨
      nativeTimingPresentBegin s device beginUs thread =
        ({ s with activePresentSaturated := true }, 0) ∨
      ∃ token next actives, token ≠ 0 ∧
        replaceFirst (·.token == 0) ⟨token, beginUs, thread⟩ s.activePresents = some actives ∧
        nativeTimingPresentBegin s device beginUs thread =
          ({ s with activePresents := actives, nextPresentToken := next }, token) := by
  unfold nativeTimingPresentBegin
  split
  · rename_i refused
    exact .inl ⟨rfl, fun ⟨d, b, t, _⟩ => refused.elim d fun rest => rest.elim b t⟩
  split
  · rename_i other
    exact .inl ⟨rfl, fun all => other all.2.2.2.symm⟩
  · dsimp only
    split
    · rename_i actives replaced
      exact .inr (.inr ⟨_, _, actives, drawToken_ne_zero _, replaced, rfl⟩)
    · exact .inr (.inl rfl)

theorem note_cases (s : PresentState) (device : Nat) (token : UInt64)
    (span : EdvrNativePresentSpan) :
    nativeTimingNotePresent s device token span = s ∧
        ¬(device ≠ 0 ∧ token ≠ 0 ∧ device = s.device ∧
          s.activePresents.any (·.token == token)) ∨
      (device ≠ 0 ∧ token ≠ 0 ∧ device = s.device ∧ s.activePresents.any (·.token == token)) ∧
        ∃ actives, replaceFirst (·.token == token) {} s.activePresents = some actives ∧
          nativeTimingNotePresent s device token span =
            keepSpan { s with activePresents := actives } span := by
  have isSome := replaceFirst_isSome (·.token == token) {} s.activePresents
  unfold nativeTimingNotePresent
  split
  · rename_i refused
    exact .inl ⟨rfl, fun ⟨d, t, _⟩ => refused.elim d t⟩
  rename_i given
  split
  · rename_i other
    exact .inl ⟨rfl, fun all => other all.2.2.1.symm⟩
  rename_i same
  split
  · rename_i actives replaced
    rw [replaced] at isSome
    exact .inr ⟨⟨fun d => given (.inl d), fun t => given (.inr t), (not_not.mp same).symm,
      isSome.symm⟩, actives, replaced, rfl⟩
  · rename_i missing
    rw [missing] at isSome
    exact .inl ⟨rfl, fun all => absurd (isSome.trans all.2.2.2) Bool.false_ne_true⟩

namespace Follows

variable {run : PresentRun}

theorem begin (h : Follows run) (device beginUs thread : Nat) :
    Follows (run.step (.begin device beginUs thread)) := by
  unfold PresentRun.step
  rcases begin_cases run.state device beginUs thread with
    ⟨isSame, unlawful⟩ | isFull | ⟨token, next, actives, nonzero, replaced, isNew⟩
  · simp only [isSame, if_true, true_and, if_neg unlawful]
    exact h
  · simp only [isFull, if_true]
    exact ⟨{ h.remembers with }, h.present, fun _ => rfl⟩
  · simp only [isNew, nonzero, if_false, false_and]
    refine ⟨{ h.remembers with }, ?_, h.saturated⟩
    obtain ⟨before, x, after, isOld, isFree, isActives, -⟩ := replaceFirst_some replaced
    have present := h.present
    rw [isOld, running_append, running_cons_free x (by simpa using isFree)] at present
    rw [isActives, running_append, running_cons_busy _ nonzero]
    -- The new Present is one more of those in the table.
    refine (List.perm_append_singleton _ _).trans (((present.cons (token, beginUs)).trans ?_))
    simp only [List.append_assoc, List.cons_append]
    exact List.perm_middle.symm

theorem note (h : Follows run) (device : Nat) (token : UInt64) (span : EdvrNativePresentSpan)
    (begins : run.Begins (.note device token span))
    (few : (run.step (.note device token span)).noted.length < 2 ^ 64) :
    Follows (run.step (.note device token span)) := by
  unfold PresentRun.step at few ⊢
  rcases note_cases run.state device token span with
    ⟨isSame, unlawful⟩ | ⟨lawful, actives, replaced, isNew⟩
  · simp only [isSame, if_neg unlawful]
    exact h
  · simp only [isNew, if_pos lawful] at few ⊢
    have few : run.spans.length + 1 < 2 ^ 64 := by
      simpa [PresentRun.spans] using few
    obtain ⟨before, x, after, isOld, isToken, isActives, found⟩ := replaceFirst_some replaced
    have isToken : x.token = token := by simpa using isToken
    have remembers : Remembers run.spans { run.state with activePresents := actives } :=
      { h.remembers with }
    refine ⟨?_, ?_, ?_⟩
    · have := remembers.keepSpan span few
      simpa [PresentRun.spans] using this
    · have present := h.present
      have isBegin := begins x found
      dsimp only [PresentRun.finished]
      rw [isOld, running_append, running_cons_busy x (isToken ▸ lawful.2.1)] at present
      rw [keepSpan_actives, isActives, running_append, running_cons_free {} rfl, List.map_append,
        List.map_singleton, isBegin, ← isToken]
      -- The Present has left the table and is the last of those that were noted.
      refine present.trans (List.perm_iff_count.mpr fun other => ?_)
      simp only [List.count_append, List.count_cons, List.count_nil, PresentRun.finished]
      omega
    · intro some
      rw [keepSpan_saturated]
      exact h.saturated some

end Follows

theorem noted_step (run : PresentRun) (call : PresentCall) :
    run.noted.length ≤ (run.step call).noted.length := by
  cases call with
  | begin device beginUs thread => exact Nat.le_refl _
  | note device token span =>
    unfold PresentRun.step
    dsimp only
    split
    · simp
    · exact Nat.le_refl _

theorem noted_run (run : PresentRun) (calls : List PresentCall) :
    run.noted.length ≤ (calls.foldl PresentRun.step run).noted.length := by
  induction calls generalizing run with
  | nil => exact Nat.le_refl _
  | cons call rest ih => exact Nat.le_trans (noted_step run call) (ih _)

theorem Follows.run {run : PresentRun} (h : Follows run) {calls : List PresentCall}
    (honest : run.Honest calls)
    (few : (calls.foldl PresentRun.step run).noted.length < 2 ^ 64) :
    Follows (calls.foldl PresentRun.step run) := by
  induction calls generalizing run with
  | nil => exact h
  | cons call rest ih =>
    obtain ⟨begins, later⟩ := honest
    refine ih ?_ later few
    cases call with
    | begin device beginUs thread => exact h.begin device beginUs thread
    | note device token span =>
      exact h.note device token span begins (Nat.lt_of_le_of_lt (noted_run _ rest) few)

theorem acquired_follows (device generation : Nat) (next : UInt64) :
    Follows (acquired device generation next) := by
  refine ⟨⟨rfl, ?_, fun _ _ _ => rfl, ?_⟩, .refl _, fun some => absurd rfl some⟩
  · intro k span found
    cases found
  · intro k span found
    cases found

/-! ### The trace -/

theorem scan_eq {spans : List EdvrNativePresentSpan} (h : Remembers spans s)
    (few : spans.length < 2 ^ 64) (beginUs endUs : Nat) (overflow : Bool) {first : Nat}
    (near : spans.length ≤ first + 64) {count : Nat} (fits : first + count ≤ spans.length) :
    (List.range' (first + 1) count).foldl (PresentScan.visit s beginUs endUs)
        { overflow := overflow } =
      { overflow := overflow
        overlaps := (((spans.drop first).take count).filter
          (tracedPresent · beginUs endUs)).length
        spans := (((spans.drop first).take count).filter
          (tracedPresent · beginUs endUs)).take kPresentTraceCapacity } := by
  induction count with
  | zero => simp
  | succ count ih =>
    have inside : first + count < spans.length := fits
    obtain ⟨span, found⟩ : ∃ span, spans[first + count]? = some span :=
      ⟨_, List.getElem?_eq_getElem inside⟩
    have next : (spans.drop first)[count]? = some span := by
      rw [List.getElem?_drop]
      exact found
    have record := h.ring (first + count) span found (by omega)
    rw [List.range'_1_concat, List.foldl_append, ih (by omega), List.foldl_cons, List.foldl_nil,
      List.take_add_one, next, Option.toList_some, List.filter_append]
    generalize ((spans.drop first).take count).filter (tracedPresent · beginUs endUs) = kept
    unfold PresentScan.visit
    rw [show first + 1 + count = first + count + 1 by omega, historySlot_ofNat (by omega), record]
    cases traced : tracedPresent span beginUs endUs with
    | false => simp [traced]
    | true =>
      by_cases room : kept.length < kPresentTraceCapacity
      · have all := List.take_of_length_le (Nat.le_of_lt room)
        have more : (kept ++ [span]).take kPresentTraceCapacity = kept ++ [span] :=
          List.take_of_length_le (by rw [List.length_append]; exact room)
        simp [traced, room, all, more]
      · have full : (kept ++ [span]).take kPresentTraceCapacity =
            kept.take kPresentTraceCapacity :=
          List.take_append_of_le_length (Nat.le_of_not_lt room)
        simp [traced, room, full]

def PresentRun.lost (run : PresentRun) : Nat := run.noted.length - 64

theorem read_cases {run : PresentRun} (h : Follows run) (few : run.noted.length + 1 < 2 ^ 64)
    {live given : Bool} {beginUs endUs : Nat} {trace : EdvrNativePresentTrace}
    (read : edvrReadNativePresentTrace run.state live beginUs endUs given = some trace)
    (whole : trace.overflow = false) :
    trace.spans = (run.spans.drop run.lost).filter (tracedPresent · beginUs endUs) ∧
      trace.count = trace.spans.length ∧
      run.state.presentOverwrittenMalformed = false ∧
      run.state.presentOverwrittenMaxEndUs < beginUs ∧
      run.state.activePresentSaturated = false ∧
      ∀ active ∈ run.state.activePresents, active.token ≠ 0 → endUs < active.beginUs := by
  have length : run.spans.length = run.noted.length := by simp [PresentRun.spans]
  have isTotal : run.state.presentTotalObserved.toNat = run.noted.length := by
    rw [h.remembers.total, length]
    exact UInt64.toNat_ofNat_of_lt' (show _ < 2 ^ 64 by omega)
  have oldest : (if kPresentHistoryCapacity < run.state.presentTotalObserved then
      (run.state.presentTotalObserved - kPresentHistoryCapacity + 1).toNat else 1) =
        run.lost + 1 := by
    unfold PresentRun.lost
    split
    · rename_i full
      have isSub : (run.state.presentTotalObserved - kPresentHistoryCapacity).toNat =
          run.noted.length - 64 := by
        rw [UInt64.toNat_sub_of_le _ _ (UInt64.le_iff_toNat_le.mpr (Nat.le_of_lt
          (UInt64.lt_iff_toNat_lt.mp full))), isTotal]
        rfl
      rw [UInt64.toNat_add, isSub]
      exact Nat.mod_eq_of_lt (by change _ + 1 < _; omega)
    · rename_i part
      have small : ¬64 < run.noted.length := fun lt =>
        part (UInt64.lt_iff_toNat_lt.mpr (isTotal.symm ▸ lt))
      omega
  unfold edvrReadNativePresentTrace at read
  split at read
  · cases read
  split at read
  · cases read
  dsimp only at read
  rw [oldest, isTotal, scan_eq h.remembers (by omega) beginUs endUs _
    (by unfold PresentRun.lost; omega) (by unfold PresentRun.lost; omega)] at read
  cases read
  simp only [Bool.or_eq_false_iff, decide_eq_false_iff_not, Nat.not_le, Nat.not_lt] at whole
  obtain ⟨⟨⟨⟨wellFormed, ended⟩, free⟩, busy⟩, fits⟩ := whole
  have all : (run.spans.drop run.lost).take (run.noted.length + 1 - (run.lost + 1)) =
      run.spans.drop run.lost := by
    refine List.take_of_length_le ?_
    rw [List.length_drop, length]
    omega
  rw [all] at fits
  refine ⟨?_, ?_, wellFormed, ended, free, fun active mem nonzero => ?_⟩
  · dsimp only
    rw [all]
    exact List.take_of_length_le fits
  · dsimp only
    rw [all, List.length_take, Nat.min_comm]
  · have := List.any_eq_false.mp busy active mem
    simpa [nonzero] using this

theorem lost_excluded {run : PresentRun} (h : Follows run) {beginUs : Nat}
    (wellFormed : run.state.presentOverwrittenMalformed = false)
    (ended : run.state.presentOverwrittenMaxEndUs < beginUs) {span : EdvrNativePresentSpan}
    (gone : span ∈ run.spans.take run.lost) :
    malformedPresent span = false ∧ span.endUs < beginUs := by
  obtain ⟨k, found⟩ := List.mem_iff_getElem?.mp gone
  have length : run.spans.length = run.noted.length := by simp [PresentRun.spans]
  have small := (List.getElem?_eq_some_iff.mp found).1
  rw [List.length_take, length, PresentRun.lost] at small
  rw [List.getElem?_take_of_lt (by unfold PresentRun.lost; omega)] at found
  obtain ⟨told, bounded⟩ := h.remembers.lost k span found (by omega)
  have isFine : malformedPresent span = false := by
    by_contra malformed
    rw [told (by simpa using malformed)] at wellFormed
    cases wellFormed
  exact ⟨isFine, Nat.lt_of_le_of_lt (bounded isFine) ended⟩

/-- A trace without overflow has, in order, the noted Presents that overlap the interval
and the malformed ones it cannot exclude. Of the Presents begun by its end each was
noted; none was refused for want of a slot, and those the ring has lost were well
formed and had ended before the interval. -/
theorem presentTrace_complete {device generation : Nat} {next : UInt64} {calls : List PresentCall}
    (honest : (acquired device generation next).Honest calls)
    (few : (presentRun device generation next calls).noted.length + 1 < 2 ^ 64)
    {live given : Bool} {beginUs endUs : Nat} {trace : EdvrNativePresentTrace}
    (read : edvrReadNativePresentTrace (presentRun device generation next calls).state live beginUs
      endUs given = some trace) (whole : trace.overflow = false) :
    let run := presentRun device generation next calls
    trace.spans = run.spans.filter (tracedPresent · beginUs endUs) ∧
      trace.count = trace.spans.length ∧
      (run.begun.filter (·.2 ≤ endUs)).Perm (run.finished.filter (·.2 ≤ endUs)) ∧
      run.refused = [] ∧
      ∀ span ∈ run.spans.take run.lost, malformedPresent span = false ∧ span.endUs < beginUs := by
  have follows : Follows (presentRun device generation next calls) :=
    (acquired_follows device generation next).run honest (Nat.lt_of_succ_lt few)
  intro run
  obtain ⟨spans, count, wellFormed, ended, free, busy⟩ := read_cases follows few read whole
  have excluded : ∀ span ∈ run.spans.take run.lost,
      malformedPresent span = false ∧ span.endUs < beginUs :=
    fun span gone => lost_excluded follows wellFormed ended gone
  refine ⟨?_, count, ?_, ?_, excluded⟩
  · have none : (run.spans.take run.lost).filter (tracedPresent · beginUs endUs) = [] := by
      rw [List.filter_eq_nil_iff]
      intro span gone
      obtain ⟨isFine, before⟩ := excluded span gone
      simp [tracedPresent, isFine, overlapsPresent, Nat.not_le.mpr before]
    rw [spans, ← List.take_append_drop run.lost run.spans, List.filter_append, none, List.nil_append,
      List.take_append_drop]
  · have still : (running run.state.activePresents).filter (·.2 ≤ endUs) = [] := by
      rw [List.filter_eq_nil_iff]
      intro entry mem
      obtain ⟨active, isActive, rfl⟩ := List.mem_map.mp mem
      obtain ⟨mem, nonzero⟩ := List.mem_filter.mp isActive
      have := busy active mem (by simpa using nonzero)
      simpa using this
    have present := follows.present.filter (·.2 ≤ endUs)
    rw [List.filter_append, still, List.nil_append] at present
    exact present
  · by_contra some
    rw [follows.saturated some] at free
    cases free

/-- A Present that began at `10`, found a slot and was noted. -/
theorem presentTrace_complete_sample :
    [⟨10, 11, 12, 13, 14, 1, 0, 0, 0⟩] =
      (presentRun 3 7 1 [.begin 3 10 1, .note 3 1 ⟨10, 11, 12, 13, 14, 1, 0, 0, 0⟩]).spans.filter
        (tracedPresent · 12 20) := by
  have honest : (acquired 3 7 1).Honest
      [.begin 3 10 1, .note 3 1 ⟨10, 11, 12, 13, 14, 1, 0, 0, 0⟩] := by
    decide +kernel
  have read : edvrReadNativePresentTrace (presentRun 3 7 1
      [.begin 3 10 1, .note 3 1 ⟨10, 11, 12, 13, 14, 1, 0, 0, 0⟩]).state true 12 20 true =
        some ⟨1, false, 7, 1, [⟨10, 11, 12, 13, 14, 1, 0, 0, 0⟩]⟩ := by
    decide +kernel
  exact (presentTrace_complete honest (by decide +kernel) read rfl).1

/-- A Present every ten microseconds, from the first to the last of a number. -/
def steadyPresents (count : Nat) : List PresentCall :=
  (List.range count).flatMap fun i =>
    let t := 10 * i + 1
    [.begin 3 t 1, .note 3 (UInt64.ofNat (i + 1)) ⟨t, t + 1, t + 2, t + 3, t + 4, 1, 0, 0, 0⟩]

/-- Of 65 Presents the first is overwritten. A trace of the last one has no overflow, and
the first began before its end. -/
theorem presentTrace_overwritten : ¬ ∀ (calls : List PresentCall) (trace : EdvrNativePresentTrace),
    (acquired 3 7 1).Honest calls →
    edvrReadNativePresentTrace (presentRun 3 7 1 calls).state true 641 650 true = some trace →
    trace.overflow = false →
    ∀ span ∈ (presentRun 3 7 1 calls).spans, span.beginUs ≤ 650 →
      ∃ slot < 64, ((presentRun 3 7 1 calls).state.presentHistory slot).span = span := by
  intro claim
  refine absurd (claim (steadyPresents 65) ⟨1, false, 7, 65, [⟨641, 642, 643, 644, 645, 1, 0, 0, 0⟩]⟩
    (by decide +kernel) (by decide +kernel) rfl ⟨1, 2, 3, 4, 5, 1, 0, 0, 0⟩ (by decide +kernel)
    (by decide)) ?_
  decide +kernel

end EdvrPatch.Timing
