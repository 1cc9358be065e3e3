import EdvrPatch.Lib.Traced

/-! One eye's route cost, summed per frame, of `ui_layer_math.h`. Times are of any
type with an addition and an order: the order of the additions is kept, so that the
sums are those of the doubles. -/
namespace EdvrPatch.Ui

variable {R : Type}

structure UiRouteSum (R : Type) where
  seq : Nat
  lostSeq : Nat
  closedSeq : Nat
  ms : R
  isOpen : Bool
  bad : Bool
  deriving DecidableEq, Repr

def UiRouteSum.fresh [Zero R] : UiRouteSum R := ⟨0, 0, 0, 0, false, false⟩

def uiRouteLost (s : UiRouteSum R) (seq : Nat) : UiRouteSum R :=
  if s.isOpen && s.seq == seq then { s with bad := true }
  else if s.lostSeq < seq then { s with lostSeq := seq }
  else s

def uiRouteLate (s : UiRouteSum R) (seq : Nat) : Bool :=
  decide (seq ≤ s.closedSeq) || (s.isOpen && decide (seq < s.seq))

/-- The first half of `uiRouteAdd`: the sum of an earlier frame ends. `wanted` says
that the caller gives a place for the value. -/
def closeEarlier (s : UiRouteSum R) (seq : Nat) (wanted : Bool) : UiRouteSum R × Option R :=
  if s.isOpen && seq != s.seq then
    ({ s with closedSeq := s.seq, isOpen := false }, if !s.bad && wanted then some s.ms else none)
  else (s, none)

def uiRouteClose (s : UiRouteSum R) (oldestPendingSeq : Nat) (wanted : Bool) :
    UiRouteSum R × Option R :=
  if !s.isOpen || decide (oldestPendingSeq ≤ s.seq) then (s, none)
  else
    ({ s with isOpen := false, closedSeq := s.seq },
      if s.bad || !wanted then none else some s.ms)

inductive UiRouteCall (R : Type) where
  | add (seq : Nat) (ms : R) (valid wanted : Bool)
  | lost (seq : Nat)
  | close (oldestPendingSeq : Nat) (wanted : Bool)
  deriving DecidableEq, Repr

/-- A frame whose sum has ended, with the total if it was reported good. -/
structure Closing (R : Type) where
  frame : Nat
  total : Option R
  deriving DecidableEq, Repr

section Calls

variable [Zero R] [Add R] [LE R] [DecidableLE R]

def openFrame (s : UiRouteSum R) (seq : Nat) : UiRouteSum R :=
  if s.isOpen then s
  else { s with isOpen := true, seq := seq, ms := 0, bad := seq == s.lostSeq }

def takeSample (s : UiRouteSum R) (ms : R) (valid : Bool) : UiRouteSum R :=
  if valid && decide (0 ≤ ms) then { s with ms := s.ms + ms } else { s with bad := true }

def uiRouteAdd (s : UiRouteSum R) (seq : Nat) (ms : R) (valid wanted : Bool) :
    UiRouteSum R × Option R :=
  if uiRouteLate s seq then (s, none)
  else
    let (rest, closed) := closeEarlier s seq wanted
    (takeSample (openFrame rest seq) ms valid, closed)

def UiRouteSum.perform (s : UiRouteSum R) : UiRouteCall R → UiRouteSum R × Option R
  | .add seq ms valid wanted => uiRouteAdd s seq ms valid wanted
  | .lost seq => (uiRouteLost s seq, none)
  | .close oldestPendingSeq wanted => uiRouteClose s oldestPendingSeq wanted

/-- The call ends the open sum: it is no longer the open one afterwards. -/
def UiRouteSum.closing (s : UiRouteSum R) (call : UiRouteCall R) : List (Closing R) :=
  let (s', total) := s.perform call
  if s.isOpen && !(s'.isOpen && s'.seq == s.seq) then [⟨s.seq, total⟩] else []

/-- A run from the fresh sum: the state, and the frames closed on the way. -/
def routeRun (calls : List (UiRouteCall R)) : UiRouteSum R × List (Closing R) :=
  Lib.traced (fun s call => ((s.perform call).1, s.closing call)) .fresh calls

end Calls

/-- The samples of a frame that were added, in order, with their validity. -/
def samplesOf (frame : Nat) (calls : List (UiRouteCall R)) : List (R × Bool) :=
  calls.filterMap fun
    | .add seq ms valid _ => if seq = frame then some (ms, valid) else none
    | _ => none

/-- When the first sample of the frame came, no later frame was known to be lost,
if this one was. -/
def Remembered (frame : Nat) (calls : List (UiRouteCall R)) : Prop :=
  ∀ before ms valid wanted after, calls = before ++ UiRouteCall.add frame ms valid wanted :: after →
    samplesOf frame before = [] → .lost frame ∈ before → ∀ g, .lost g ∈ before → g ≤ frame

theorem Remembered.earlier {frame : Nat} {calls : List (UiRouteCall R)} {call : UiRouteCall R}
    (h : Remembered frame (calls ++ [call])) : Remembered frame calls := by
  intro before ms valid wanted after isSplit
  exact h before ms valid wanted (after ++ [call]) (by rw [isSplit]; simp)

def UiRouteSum.Reached (s : UiRouteSum R) (frame : Nat) : Prop :=
  frame ≤ s.closedSeq ∨ s.isOpen ∧ frame ≤ s.seq

variable [Zero R] [Add R]

def total (samples : List (R × Bool)) : R :=
  samples.foldl (fun sum x => sum + x.1) 0

theorem total_concat (samples : List (R × Bool)) (x : R × Bool) :
    total (samples ++ [x]) = total samples + x.1 := by
  simp [total]

variable [LE R]

structure Sums (past : List (UiRouteCall R)) (s : UiRouteSum R) : Prop where
  ahead : s.isOpen → s.closedSeq < s.seq
  seen : ∀ f, samplesOf f past ≠ [] → s.Reached f
  whole : s.isOpen → s.bad = false → s.ms = total (samplesOf s.seq past) ∧
    ∀ x ∈ samplesOf s.seq past, x.2 ∧ 0 ≤ x.1
  newest : ∀ f, .lost f ∈ past → f ≤ s.lostSeq ∨ s.Reached f
  wasLost : s.lostSeq = 0 ∨ .lost s.lostSeq ∈ past
  clean : s.isOpen → s.bad = false → Remembered s.seq past → .lost s.seq ∉ past

namespace Sums

variable {past : List (UiRouteCall R)} {s : UiRouteSum R}

theorem ended (h : Sums past s) (isOpen : s.isOpen) :
    Sums past { s with isOpen := false, closedSeq := s.seq } := by
  have reached : ∀ f, s.Reached f →
      UiRouteSum.Reached { s with isOpen := false, closedSeq := s.seq } f := by
    rintro f (closed | ⟨-, here⟩)
    · exact .inl (Nat.le_trans closed (Nat.le_of_lt (h.ahead isOpen)))
    · exact .inl here
  refine ⟨by simp, fun f some => reached f (h.seen f some), by simp, fun f isLost => ?_,
    h.wasLost, by simp⟩
  exact (h.newest f isLost).imp id (reached f)

theorem quiet (h : Sums past s) {oldest : Nat} {wanted : Bool} :
    Sums (past ++ [UiRouteCall.close oldest wanted]) s := by
  have samples : ∀ f, samplesOf f (past ++ [UiRouteCall.close oldest wanted]) = samplesOf f past := by
    simp [samplesOf]
  refine ⟨h.ahead, fun f => ?_, ?_, fun f isLost => ?_, h.wasLost.imp id fun mem => ?_,
    fun isOpen good kept isLost => ?_⟩
  · rw [samples]
    exact h.seen f
  · rw [samples]
    exact h.whole
  · exact h.newest f (by simpa using isLost)
  · exact List.mem_append_left _ mem
  · exact h.clean isOpen good kept.earlier (by simpa using isLost)

theorem late (h : Sums past s) {seq : Nat} {ms : R} {valid wanted : Bool}
    (isLate : uiRouteLate s seq) : Sums (past ++ [UiRouteCall.add seq ms valid wanted]) s := by
  have passed : seq ≤ s.closedSeq ∨ s.isOpen ∧ seq < s.seq := by
    simpa [uiRouteLate] using isLate
  have others : ∀ f, f ≠ seq →
      samplesOf f (past ++ [UiRouteCall.add seq ms valid wanted]) = samplesOf f past := by
    intro f ne
    simp [samplesOf, ne.symm]
  have notOpen : s.isOpen → s.seq ≠ seq := by
    intro isOpen eq
    have := h.ahead isOpen
    omega
  refine ⟨h.ahead, fun f some => ?_, fun isOpen => ?_, fun f isLost => ?_,
    h.wasLost.imp id fun mem => ?_, fun isOpen good kept isLost => ?_⟩
  · by_cases eq : f = seq
    · subst eq
      exact passed.imp id fun ⟨isOpen, lt⟩ => ⟨isOpen, Nat.le_of_lt lt⟩
    · rw [others f eq] at some
      exact h.seen f some
  · rw [others _ (notOpen isOpen)]
    exact h.whole isOpen
  · exact h.newest f (by simpa using isLost)
  · exact List.mem_append_left _ mem
  · exact h.clean isOpen good kept.earlier (by simpa using isLost)

theorem fresh : Sums ([] : List (UiRouteCall R)) .fresh := by
  refine ⟨by simp [UiRouteSum.fresh], ?_, by simp [UiRouteSum.fresh], by simp, .inl rfl,
    by simp [UiRouteSum.fresh]⟩
  intro f some
  exact absurd rfl some

theorem lost (h : Sums past s) (seq : Nat) :
    Sums (past ++ [UiRouteCall.lost seq]) (uiRouteLost s seq) := by
  have samples : ∀ f, samplesOf f (past ++ [UiRouteCall.lost seq]) = samplesOf f past := by
    simp [samplesOf]
  have mem : ∀ f, .lost f ∈ past ++ [UiRouteCall.lost (R := R) seq] → .lost f ∈ past ∨ f = seq := by
    simp
  have wasLost := h.wasLost.imp id (List.mem_append_left [UiRouteCall.lost (R := R) seq])
  unfold uiRouteLost
  split
  · rename_i here
    simp only [Bool.and_eq_true, beq_iff_eq] at here
    refine ⟨h.ahead, fun f some => h.seen f (samples f ▸ some), by simp, fun f isLost => ?_,
      wasLost, by simp⟩
    rcases mem f isLost with old | rfl
    · exact h.newest f old
    · exact .inr (.inr ⟨here.1, Nat.le_of_eq here.2.symm⟩)
  · rename_i elsewhere
    simp only [Bool.and_eq_true, beq_iff_eq, not_and] at elsewhere
    have clean : s.isOpen → s.bad = false → Remembered s.seq (past ++ [UiRouteCall.lost seq]) →
        .lost s.seq ∉ past ++ [UiRouteCall.lost (R := R) seq] := by
      intro isOpen good kept isLost
      rcases mem _ isLost with old | eq
      · exact h.clean isOpen good kept.earlier old
      · exact elsewhere isOpen eq
    have whole : s.isOpen → s.bad = false → s.ms = total (samplesOf s.seq (past ++ [UiRouteCall.lost seq])) ∧
        ∀ x ∈ samplesOf s.seq (past ++ [UiRouteCall.lost seq]), x.2 ∧ 0 ≤ x.1 := by
      rw [samples]
      exact h.whole
    split
    · rename_i newer
      refine ⟨h.ahead, fun f some => h.seen f (samples f ▸ some), whole, fun f isLost => ?_,
        .inr (List.mem_append_right _ (List.mem_singleton.mpr rfl)), clean⟩
      rcases mem f isLost with old | rfl
      · exact (h.newest f old).imp (fun le => Nat.le_trans le (Nat.le_of_lt newer)) id
      · exact .inl (Nat.le_refl _)
    · rename_i older
      refine ⟨h.ahead, fun f some => h.seen f (samples f ▸ some), whole, fun f isLost => ?_,
        wasLost, clean⟩
      rcases mem f isLost with old | rfl
      · exact h.newest f old
      · exact .inl (Nat.le_of_not_lt older)

theorem closed (h : Sums past s) (oldest : Nat) (wanted : Bool) :
    Sums (past ++ [UiRouteCall.close oldest wanted]) (uiRouteClose s oldest wanted).1 := by
  unfold uiRouteClose
  split
  · exact h.quiet
  · rename_i ends
    simp only [Bool.or_eq_true, Bool.not_eq_true', not_or, Bool.not_eq_false] at ends
    exact (h.ended ends.1).quiet

variable [DecidableLE R]

theorem sampled (h : Sums past s) (isOpen : s.isOpen) (ms : R) (valid wanted : Bool) :
    Sums (past ++ [UiRouteCall.add s.seq ms valid wanted]) (takeSample s ms valid) := by
  have samples : ∀ f, samplesOf f (past ++ [UiRouteCall.add s.seq ms valid wanted]) =
      samplesOf f past ++ if s.seq = f then [(ms, valid)] else [] := by
    intro f
    by_cases eq : s.seq = f <;> simp [samplesOf, eq]
  have seen : ∀ f, samplesOf f (past ++ [UiRouteCall.add s.seq ms valid wanted]) ≠ [] → s.Reached f := by
    intro f some
    by_cases eq : s.seq = f
    · exact .inr ⟨isOpen, Nat.le_of_eq eq.symm⟩
    · rw [samples, if_neg eq, List.append_nil] at some
      exact h.seen f some
  have newest : ∀ f, .lost f ∈ past ++ [UiRouteCall.add s.seq ms valid wanted] →
      f ≤ s.lostSeq ∨ s.Reached f := fun f isLost => h.newest f (by simpa using isLost)
  have wasLost := h.wasLost.imp id
    (List.mem_append_left [UiRouteCall.add s.seq ms valid wanted])
  unfold takeSample
  split
  · rename_i measured
    simp only [Bool.and_eq_true, decide_eq_true_eq] at measured
    refine ⟨h.ahead, seen, fun _ good => ?_, newest, wasLost, fun _ good kept isLost => ?_⟩
    · obtain ⟨isTotal, valids⟩ := h.whole isOpen good
      rw [samples, if_pos rfl, total_concat, isTotal]
      refine ⟨rfl, fun x mem => ?_⟩
      rcases List.mem_append.mp mem with old | new
      · exact valids x old
      · rw [List.mem_singleton] at new
        exact new ▸ measured
    · exact h.clean isOpen good kept.earlier (by simpa using isLost)
  · exact ⟨h.ahead, seen, by simp, newest, wasLost, by simp⟩

theorem opened (h : Sums past s) (isShut : s.isOpen = false) {seq : Nat}
    (later : s.closedSeq < seq) (ms : R) (valid wanted : Bool) :
    Sums (past ++ [UiRouteCall.add seq ms valid wanted]) (takeSample (openFrame s seq) ms valid) := by
  have reached : ∀ f, s.Reached f → f < seq := by
    rintro f (closed | ⟨isOpen, -⟩)
    · exact Nat.lt_of_le_of_lt closed later
    · rw [isShut] at isOpen
      cases isOpen
  have unseen : samplesOf seq past = [] := by
    by_contra some
    exact Nat.lt_irrefl _ (reached seq (h.seen seq some))
  have samples : ∀ f, samplesOf f (past ++ [UiRouteCall.add seq ms valid wanted]) =
      samplesOf f past ++ if seq = f then [(ms, valid)] else [] := by
    intro f
    by_cases eq : seq = f <;> simp [samplesOf, eq]
  have seen : ∀ f, samplesOf f (past ++ [UiRouteCall.add seq ms valid wanted]) ≠ [] → f ≤ seq := by
    intro f some
    by_cases eq : seq = f
    · exact Nat.le_of_eq eq.symm
    · rw [samples, if_neg eq, List.append_nil] at some
      exact Nat.le_of_lt (reached f (h.seen f some))
  have newest : ∀ f, .lost f ∈ past ++ [UiRouteCall.add seq ms valid wanted] →
      f ≤ s.lostSeq ∨ f ≤ seq := fun f isLost =>
    (h.newest f (by simpa using isLost)).imp id fun r => Nat.le_of_lt (reached f r)
  have wasLost := h.wasLost.imp id (List.mem_append_left [UiRouteCall.add seq ms valid wanted])
  -- A loss of the frame is the newest one, or it was not remembered.
  have clean : (seq == s.lostSeq) = false → Remembered seq (past ++ [UiRouteCall.add seq ms valid wanted]) →
      .lost seq ∉ past ++ [UiRouteCall.add seq ms valid wanted] := by
    intro other kept isLost
    have isLost : .lost seq ∈ past := by simpa using isLost
    have before : seq ≤ s.lostSeq := by
      rcases h.newest seq isLost with le | r
      · exact le
      · exact absurd (reached seq r) (Nat.lt_irrefl _)
    have known : s.lostSeq ≤ seq := by
      rcases h.wasLost with none | mem
      · omega
      · exact kept past ms valid wanted [] rfl unseen isLost _ mem
    have : seq = s.lostSeq := Nat.le_antisymm before known
    simp [this] at other
  simp only [openFrame, isShut, takeSample, Bool.false_eq_true, if_false]
  split
  · rename_i measured
    simp only [Bool.and_eq_true, decide_eq_true_eq] at measured
    refine ⟨fun _ => later, fun f some => .inr ⟨rfl, seen f some⟩, fun _ good => ?_,
      fun f isLost => (newest f isLost).imp id fun le => .inr ⟨rfl, le⟩, wasLost,
      fun _ => clean⟩
    rw [samples, if_pos rfl, unseen]
    refine ⟨rfl, fun x mem => ?_⟩
    rw [List.nil_append, List.mem_singleton] at mem
    exact mem ▸ measured
  · exact ⟨fun _ => later, fun f some => .inr ⟨rfl, seen f some⟩, by simp,
      fun f isLost => (newest f isLost).imp id fun le => .inr ⟨rfl, le⟩, wasLost, by simp⟩

theorem added (h : Sums past s) (seq : Nat) (ms : R) (valid wanted : Bool) :
    Sums (past ++ [UiRouteCall.add seq ms valid wanted]) (uiRouteAdd s seq ms valid wanted).1 := by
  unfold uiRouteAdd
  split
  · rename_i isLate
    exact h.late isLate
  · rename_i inTime
    have inTime : s.closedSeq < seq ∧ (s.isOpen → s.seq ≤ seq) := by
      simpa [uiRouteLate] using inTime
    by_cases other : s.isOpen ∧ seq ≠ s.seq
    · have later : s.seq < seq := Nat.lt_of_le_of_ne (inTime.2 other.1) (Ne.symm other.2)
      simpa [closeEarlier, other] using (h.ended other.1).opened rfl later ms valid wanted
    · have same : s.isOpen → seq = s.seq := by simpa using other
      by_cases isOpen : s.isOpen
      · have eq := same isOpen
        subst eq
        simpa [closeEarlier, openFrame, isOpen] using h.sampled isOpen ms valid wanted
      · simpa [closeEarlier, isOpen] using
          h.opened (by simpa using isOpen) inTime.1 ms valid wanted

theorem performed (h : Sums past s) (call : UiRouteCall R) :
    Sums (past ++ [call]) (s.perform call).1 := by
  cases call with
  | add seq ms valid wanted => exact h.added seq ms valid wanted
  | lost seq => exact h.lost seq
  | close oldest wanted => exact h.closed oldest wanted

end Sums

variable [DecidableLE R]

theorem routeRun_sums (calls : List (UiRouteCall R)) : Sums calls (routeRun calls).1 := by
  induction calls using List.reverseRecOn with
  | nil => exact Sums.fresh
  | append_singleton calls call ih =>
    rw [routeRun, Lib.traced_concat]
    exact ih.performed call

@[simp] theorem takeSample_seq (s : UiRouteSum R) (ms : R) (valid : Bool) :
    (takeSample s ms valid).seq = s.seq := by
  unfold takeSample
  split <;> rfl

@[simp] theorem takeSample_isOpen (s : UiRouteSum R) (ms : R) (valid : Bool) :
    (takeSample s ms valid).isOpen = s.isOpen := by
  unfold takeSample
  split <;> rfl

@[simp] theorem takeSample_closedSeq (s : UiRouteSum R) (ms : R) (valid : Bool) :
    (takeSample s ms valid).closedSeq = s.closedSeq := by
  unfold takeSample
  split <;> rfl

theorem UiRouteSum.closing_of_left {s s' : UiRouteSum R} {call : UiRouteCall R}
    {value : Option R} (does : s.perform call = (s', value)) (isOpen : s.isOpen)
    (left : s'.isOpen = false ∨ s'.seq ≠ s.seq) : s.closing call = [⟨s.seq, value⟩] := by
  have apart : (s'.isOpen && s'.seq == s.seq) = false := by
    rcases left with isShut | other
    · simp [isShut]
    · simp [other]
  simp [closing, does, isOpen, apart]

theorem UiRouteSum.perform_total {s : UiRouteSum R} {call : UiRouteCall R} {value : R}
    (reported : (s.perform call).2 = some value) :
    s.isOpen ∧ s.bad = false ∧ value = s.ms ∧ s.closing call = [⟨s.seq, some value⟩] := by
  cases does : s.perform call with
  | mk s' out =>
    rw [does] at reported
    subst reported
    cases call with
    | add seq ms valid wanted =>
      have same := does
      simp only [perform, uiRouteAdd, closeEarlier] at same
      split at same
      · cases same
      · split at same
        · rename_i other
          simp only [Bool.and_eq_true, bne_iff_ne, ne_eq] at other
          simp only [Prod.mk.injEq, ite_eq_iff, Option.some.injEq, reduceCtorEq, and_false,
            or_false, Bool.and_eq_true, Bool.not_eq_true'] at same
          obtain ⟨isNext, ⟨good, -⟩, isTotal⟩ := same
          refine ⟨other.1, good, isTotal.symm, closing_of_left does other.1 (.inr ?_)⟩
          rw [← isNext, takeSample_seq]
          exact other.2
        · cases same
    | lost seq => cases does
    | close oldest wanted =>
      have same := does
      simp only [perform, uiRouteClose] at same
      split at same
      · cases same
      · rename_i ends
        simp only [Bool.or_eq_true, Bool.not_eq_true', not_or, Bool.not_eq_false] at ends
        simp only [Prod.mk.injEq, ite_eq_iff, Option.some.injEq, reduceCtorEq, and_false,
          false_or, Bool.or_eq_true, not_or, Bool.not_eq_true, Bool.not_eq_true'] at same
        obtain ⟨isNext, ⟨good, -⟩, isTotal⟩ := same
        exact ⟨ends.1, good, isTotal.symm, closing_of_left does ends.1 (.inl (isNext ▸ rfl))⟩

theorem UiRouteSum.perform_closedSeq (s : UiRouteSum R) (call : UiRouteCall R) :
    (s.perform call).1.closedSeq = s.closedSeq ∧
      (s.isOpen → (s.perform call).1.isOpen ∧ (s.perform call).1.seq = s.seq) ∨
    s.isOpen ∧ (s.perform call).1.closedSeq = s.seq := by
  cases call with
  | add seq ms valid wanted =>
    simp only [perform, uiRouteAdd]
    split
    · exact .inl ⟨rfl, fun isOpen => ⟨isOpen, rfl⟩⟩
    · unfold closeEarlier
      split
      · rename_i other
        simp only [Bool.and_eq_true] at other
        exact .inr ⟨other.1, by simp [openFrame]⟩
      · by_cases isOpen : s.isOpen <;> simp [openFrame, isOpen]
  | lost seq =>
    simp only [perform, uiRouteLost]
    split
    · exact .inl ⟨rfl, fun isOpen => ⟨isOpen, rfl⟩⟩
    · split <;> exact .inl ⟨rfl, fun isOpen => ⟨isOpen, rfl⟩⟩
  | close oldest wanted =>
    simp only [perform, uiRouteClose]
    split
    · exact .inl ⟨rfl, fun isOpen => ⟨isOpen, rfl⟩⟩
    · rename_i ends
      simp only [Bool.or_eq_true, Bool.not_eq_true', not_or, Bool.not_eq_false] at ends
      exact .inr ⟨ends.1, rfl⟩

theorem Sums.closing_ahead {past : List (UiRouteCall R)} {s : UiRouteSum R} (h : Sums past s)
    (call : UiRouteCall R) : s.closing call = [] ∧ (s.perform call).1.closedSeq = s.closedSeq ∨
      ∃ value, s.closing call = [⟨s.seq, value⟩] ∧ s.closedSeq < s.seq ∧
        (s.perform call).1.closedSeq = s.seq := by
  rcases s.perform_closedSeq call with ⟨same, stays⟩ | ⟨isOpen, isSeq⟩
  · refine .inl ⟨?_, same⟩
    by_cases isOpen : s.isOpen
    · obtain ⟨still, seq⟩ := stays isOpen
      simp [UiRouteSum.closing, isOpen, still, seq]
    · simp [UiRouteSum.closing, isOpen]
  · -- Were it still open, its frame would be ahead of itself.
    have left : (s.perform call).1.isOpen = false ∨ (s.perform call).1.seq ≠ s.seq := by
      by_cases still : (s.perform call).1.isOpen
      · refine .inr fun same => ?_
        have ahead := (h.performed call).ahead still
        rw [isSeq, same] at ahead
        exact Nat.lt_irrefl _ ahead
      · exact .inl (by simpa using still)
    exact .inr ⟨_, UiRouteSum.closing_of_left (Prod.mk.eta).symm isOpen left, h.ahead isOpen,
      isSeq⟩

theorem closings_ascend (calls : List (UiRouteCall R)) :
    (routeRun calls).2.Pairwise (fun a b => a.frame < b.frame) ∧
      ∀ c ∈ (routeRun calls).2, c.frame ≤ (routeRun calls).1.closedSeq := by
  induction calls using List.reverseRecOn with
  | nil => exact ⟨.nil, by simp [routeRun, Lib.traced]⟩
  | append_singleton calls call ih =>
    obtain ⟨ascend, below⟩ := ih
    rw [routeRun, Lib.traced_concat]
    change ((routeRun calls).2 ++ (routeRun calls).1.closing call).Pairwise _ ∧
      ∀ c ∈ (routeRun calls).2 ++ (routeRun calls).1.closing call,
        c.frame ≤ ((routeRun calls).1.perform call).1.closedSeq
    rcases (routeRun_sums calls).closing_ahead call with ⟨none, same⟩ | ⟨value, one, ahead, isSeq⟩
    · rw [none, List.append_nil, same]
      exact ⟨ascend, below⟩
    · rw [one, isSeq]
      refine ⟨List.pairwise_append.mpr ⟨ascend, List.pairwise_singleton _ _, ?_⟩, ?_⟩
      · intro c mem d here
        rw [List.mem_singleton.mp here]
        exact Nat.lt_of_le_of_lt (below c mem) ahead
      · intro c mem
        rcases List.mem_append.mp mem with old | new
        · exact Nat.le_of_lt (Nat.lt_of_le_of_lt (below c old) ahead)
        · rw [List.mem_singleton.mp new]

/-- Frames are closed in order, each once. A total that is reported is that of the open
frame, the sum of all its samples, all of them good, and none was reported lost
exactly if its loss could not have been forgotten. A late sample changes nothing. -/
theorem uiRoute_whole (calls : List (UiRouteCall R)) :
    (routeRun calls).2.Pairwise (fun a b => a.frame < b.frame) ∧
    (∀ call value, ((routeRun calls).1.perform call).2 = some value →
      (routeRun calls).1.closing call = [⟨(routeRun calls).1.seq, some value⟩] ∧
      value = total (samplesOf (routeRun calls).1.seq calls) ∧
      (∀ x ∈ samplesOf (routeRun calls).1.seq calls, x.2 ∧ 0 ≤ x.1) ∧
      (.lost (routeRun calls).1.seq ∉ calls ↔ Remembered (routeRun calls).1.seq calls)) ∧
    ∀ seq ms valid wanted, uiRouteLate (routeRun calls).1 seq →
      (routeRun calls).1.perform (.add seq ms valid wanted) = ((routeRun calls).1, none) := by
  have sums := routeRun_sums calls
  refine ⟨(closings_ascend calls).1, fun call value reported => ?_,
    fun seq ms valid wanted isLate => ?_⟩
  · obtain ⟨isOpen, good, isTotal, closing⟩ := UiRouteSum.perform_total reported
    obtain ⟨whole, valids⟩ := sums.whole isOpen good
    refine ⟨closing, isTotal.trans whole, valids, fun isWhole => ?_, sums.clean isOpen good⟩
    intro before ms valid wanted after isSplit _ isLost
    have among : ∀ x ∈ before, x ∈ calls := by
      rw [isSplit]
      exact fun x mem => List.mem_append_left _ mem
    exact absurd (among _ isLost) isWhole
  · simp [UiRouteSum.perform, uiRouteAdd, isLate]

theorem uiRoute_whole_two_samples :
    (3 : Rat) = total (samplesOf 5 [.add 5 1 true true, .lost 9, .add 5 2 true true]) ∧
      .lost 5 ∉ [UiRouteCall.add 5 (1 : Rat) true true, .lost 9, .add 5 2 true true] := by
  have whole := (uiRoute_whole [.add 5 (1 : Rat) true true, .lost 9, .add 5 2 true true]).2.1
    (.close 6 true) 3 (by decide +kernel)
  exact ⟨whole.2.1, by decide⟩

/-- Frames `5` and `7` lose a sample each before the first sample of `5` is read. -/
theorem uiRoute_forgets_loss : ¬ ∀ (calls : List (UiRouteCall Rat)) (call : UiRouteCall Rat)
    (value : Rat), ((routeRun calls).1.perform call).2 = some value →
      .lost (routeRun calls).1.seq ∉ calls := by
  intro claim
  refine claim [.lost 5, .lost 7, .add 5 1 true true] (.close 6 true) 1 ?_ ?_
  · decide +kernel
  · decide +kernel

end EdvrPatch.Ui
