import EdvrPatch.Flash.ParentGuard

/-! Each guarded parent is judged by its own history. While no more parents come by than
the table has slots, no entry is evicted, and the table holds one cell for each parent. -/
namespace EdvrPatch.Flash

section

variable {table : ParentGuardTable} {parent : UInt64} {slots : List (Fin kCapacity)}
  {freeSlot : Option (Fin kCapacity)} {oldestSlot slot : Fin kCapacity} {oldestFrame : UInt32}

theorem findIn_found (found : findIn table parent slots freeSlot oldestSlot oldestFrame = (slot, true)) :
    (table slot).used = true ∧ (table slot).parent = parent := by
  induction slots generalizing freeSlot oldestSlot oldestFrame with
  | nil => cases found
  | cons i slots ih =>
    unfold findIn at found
    split at found
    · rename_i here
      cases found
      simpa using here
    · dsimp only at found
      split at found
      · exact ih found
      · exact ih found

theorem findIn_missing (missing : findIn table parent slots freeSlot oldestSlot oldestFrame = (slot, false)) :
    ∀ i ∈ slots, (table i).used = true → (table i).parent ≠ parent := by
  induction slots generalizing freeSlot oldestSlot oldestFrame with
  | nil => simp
  | cons i slots ih =>
    unfold findIn at missing
    split at missing
    · cases missing
    rename_i other
    have rest : ∀ i ∈ slots, (table i).used = true → (table i).parent ≠ parent := by
      dsimp only at missing
      split at missing
      · exact ih missing
      · exact ih missing
    intro j member used
    rcases List.mem_cons.mp member with rfl | later
    · intro same
      exact other (by simp [used, same])
    · exact rest j later used

theorem findIn_kept {free : Fin kCapacity}
    (missing : findIn table parent slots (some free) oldestSlot oldestFrame = (slot, false)) :
    slot = free := by
  induction slots generalizing oldestSlot oldestFrame with
  | nil =>
    cases missing
    rfl
  | cons i slots ih =>
    unfold findIn at missing
    split at missing
    · cases missing
    · simp only [Option.isNone_some, Bool.and_false, Bool.false_eq_true, if_false] at missing
      split at missing
      · exact ih missing
      · exact ih missing

theorem findIn_free (missing : findIn table parent slots none oldestSlot oldestFrame = (slot, false))
    (room : ∃ i ∈ slots, (table i).used = false) : (table slot).used = false := by
  induction slots generalizing oldestSlot oldestFrame with
  | nil =>
    obtain ⟨i, member, -⟩ := room
    cases member
  | cons i slots ih =>
    unfold findIn at missing
    split at missing
    · cases missing
    cases unused : (table i).used with
    | false =>
      simp only [unused, Bool.not_false, Option.isNone_none, Bool.and_true, if_true] at missing
      split at missing
      · rw [findIn_kept missing, unused]
      · rw [findIn_kept missing, unused]
    | true =>
      have later : ∃ i ∈ slots, (table i).used = false := by
        obtain ⟨j, member, free⟩ := room
        rcases List.mem_cons.mp member with rfl | later
        · rw [unused] at free
          cases free
        · exact ⟨j, later, free⟩
      simp only [unused, Bool.not_true, Bool.false_and, Bool.false_eq_true, if_false] at missing
      split at missing
      · exact ih missing later
      · exact ih missing later

end

/-- The table holds the cell of each parent that was seen, in a slot of its own. -/
structure Holds (table : ParentGuardTable) (cells : UInt64 → Entry) : Prop where
  filed : ∀ i, (table i).used = true → cells (table i).parent = table i
  held : ∀ p, (cells p).used = true → ∃ i, table i = cells p ∧ (cells p).parent = p
  blank : ∀ p, (cells p).used = false → cells p = {}
  apart : ∀ i j, (table i).used = true → (table j).used = true →
    (table i).parent = (table j).parent → i = j

theorem Holds.empty : Holds ParentGuardTable.empty (fun _ => {}) where
  filed _ used := absurd used Bool.false_ne_true
  held _ used := absurd used Bool.false_ne_true
  blank _ _ := rfl
  apart _ _ used := absurd used Bool.false_ne_true

section

variable {table : ParentGuardTable} {cells : UInt64 → Entry} {seen : Finset UInt64} {p : UInt64}
  {slot : Fin kCapacity}

theorem exists_free (apart : ∀ i j, (table i).used = true → (table j).used = true →
      (table i).parent = (table j).parent → i = j)
    (within : ∀ i, (table i).used = true → (table i).parent ∈ seen) (fits : seen.card ≤ kCapacity)
    (here : p ∈ seen) (absent : ∀ i, (table i).used = true → (table i).parent ≠ p) :
    ∃ i, (table i).used = false := by
  by_contra full
  have used : ∀ i, (table i).used = true := by
    intro i
    cases h : (table i).used with
    | false => exact absurd ⟨i, h⟩ full
    | true => rfl
  have inside : (Finset.univ.image fun i => (table i).parent) ⊆ seen.erase p := by
    intro q member
    obtain ⟨i, -, rfl⟩ := Finset.mem_image.mp member
    exact Finset.mem_erase.mpr ⟨absent i (used i), within i (used i)⟩
  have injective : Function.Injective fun i => (table i).parent :=
    fun i j same => apart i j (used i) (used j) same
  have count := Finset.card_le_card inside
  rw [Finset.card_image_of_injective _ injective, Finset.card_univ, Fintype.card_fin,
    Finset.card_erase_of_mem here] at count
  have pos : 0 < kCapacity := by decide
  omega

theorem Holds.finds (holds : Holds table cells)
    (within : ∀ i, (table i).used = true → (table i).parent ∈ seen) (fits : seen.card ≤ kCapacity)
    (here : p ∈ seen) :
    ∃ slot, findOrEvict table p = (slot, Function.update table slot (cells p)) ∧
      ((table slot).used = true → (table slot).parent = p) ∧
      (∀ i, (table i).used = true → (table i).parent = p → i = slot) := by
  generalize walk : findIn table p (List.finRange kCapacity) none ⟨0, by decide⟩ 0xFFFFFFFF = result
  obtain ⟨slot, found⟩ := result
  refine ⟨slot, ?_⟩
  unfold findOrEvict
  rw [walk]
  cases found with
  | true =>
    obtain ⟨used, own⟩ := findIn_found walk
    have cell := holds.filed slot used
    rw [own] at cell
    refine ⟨?_, fun _ => own, fun i usedI ownI => holds.apart i slot usedI used (ownI.trans own.symm)⟩
    dsimp only
    rw [if_pos rfl, cell, Function.update_eq_self]
  | false =>
    have absent : ∀ i, (table i).used = true → (table i).parent ≠ p :=
      fun i => findIn_missing walk i (List.mem_finRange i)
    have free : (table slot).used = false := by
      obtain ⟨i, unused⟩ := exists_free holds.apart within fits here absent
      exact findIn_free walk ⟨i, List.mem_finRange i, unused⟩
    have blank : cells p = {} := by
      apply holds.blank
      cases used : (cells p).used with
      | false => rfl
      | true =>
        obtain ⟨i, same, own⟩ := holds.held p used
        rw [← same] at used own
        exact absurd own (absent i used)
    refine ⟨?_, fun used => ?_, fun i used own => absurd own (absent i used)⟩
    · dsimp only
      rw [if_neg Bool.false_ne_true, blank]
    · rw [free] at used
      cases used

theorem Holds.called (holds : Holds table cells) {c : Call}
    (own : (table slot).used = true → (table slot).parent = c.parent)
    (only : ∀ i, (table i).used = true → (table i).parent = c.parent → i = slot) :
    Holds (Function.update table slot ((cells c.parent).classified c).2)
      (Lib.called Entry.classified Call.parent cells c) := by
  unfold Lib.called
  refine ⟨fun i used => ?_, fun p used => ?_, fun p unused => ?_, fun i j usedI usedJ same => ?_⟩
  · by_cases here : i = slot
    · subst here
      rw [Function.update_self, Entry.classified_parent, Function.update_self]
    · rw [Function.update_of_ne here] at used ⊢
      have other : (table i).parent ≠ c.parent := fun same => here (only i used same)
      rw [Function.update_of_ne other, holds.filed i used]
  · by_cases this : p = c.parent
    · subst this
      rw [Function.update_self]
      exact ⟨slot, Function.update_self .., Entry.classified_parent ..⟩
    · rw [Function.update_of_ne this] at used ⊢
      obtain ⟨i, same, parent⟩ := holds.held p used
      have elsewhere : i ≠ slot := by
        rintro rfl
        rw [← same] at used parent
        exact this (parent.symm.trans (own used))
      exact ⟨i, by rw [Function.update_of_ne elsewhere, same], parent⟩
  · by_cases this : p = c.parent
    · subst this
      rw [Function.update_self, Entry.classified_used] at unused
      cases unused
    · rw [Function.update_of_ne this] at unused ⊢
      exact holds.blank p unused
  · by_cases hereI : i = slot <;> by_cases hereJ : j = slot
    · rw [hereI, hereJ]
    · subst hereI
      rw [Function.update_of_ne hereJ] at usedJ same
      rw [Function.update_self, Entry.classified_parent] at same
      exact (only j usedJ same.symm).symm
    · subst hereJ
      rw [Function.update_of_ne hereI] at usedI same
      rw [Function.update_self, Entry.classified_parent] at same
      exact only i usedI same
    · rw [Function.update_of_ne hereI] at usedI same
      rw [Function.update_of_ne hereJ] at usedJ same
      exact holds.apart i j usedI usedJ same

theorem Holds.onClassified (holds : Holds table cells) {c : Call}
    (within : ∀ i, (table i).used = true → (table i).parent ∈ seen) (fits : seen.card ≤ kCapacity)
    (here : c.parent ∈ seen) :
    (onClassified table c).1 = ((cells c.parent).classified c).1 ∧
      Holds (onClassified table c).2 (Lib.called Entry.classified Call.parent cells c) ∧
      ∀ i, ((onClassified table c).2 i).used = true → ((onClassified table c).2 i).parent ∈ seen := by
  obtain ⟨slot, finds, own, only⟩ := holds.finds within fits here
  have result : EdvrPatch.Flash.onClassified table c =
      (((cells c.parent).classified c).1,
        Function.update table slot ((cells c.parent).classified c).2) := by
    unfold EdvrPatch.Flash.onClassified
    rw [finds]
    dsimp only
    rw [Function.update_self, Function.update_idem]
  rw [result]
  refine ⟨rfl, holds.called own only, fun i used => ?_⟩
  dsimp only at used ⊢
  by_cases at_slot : i = slot
  · subst at_slot
    rw [Function.update_self, Entry.classified_parent]
    exact here
  · rw [Function.update_of_ne at_slot] at used ⊢
    exact within i used

theorem Holds.run (holds : Holds table cells)
    (within : ∀ i, (table i).used = true → (table i).parent ∈ seen) (fits : seen.card ≤ kCapacity)
    {calls : List Call} (here : ∀ c ∈ calls, c.parent ∈ seen) :
    verdicts table calls = Lib.answers Entry.classified Call.parent cells calls ∧
      Holds (afterCalls table calls) (calls.foldl (Lib.called Entry.classified Call.parent) cells) ∧
      ∀ i, (afterCalls table calls i).used = true → (afterCalls table calls i).parent ∈ seen := by
  induction calls generalizing table cells with
  | nil => exact ⟨rfl, holds, within⟩
  | cons c calls ih =>
    obtain ⟨verdict, next, inside⟩ := holds.onClassified within fits (here c List.mem_cons_self)
    obtain ⟨same, after⟩ := ih next inside fun d later => here d (List.mem_cons_of_mem c later)
    refine ⟨?_, after⟩
    change (EdvrPatch.Flash.onClassified table c).1 :: verdicts _ calls = _
    rw [verdict, same]
    rfl

end

def parents (calls : List Call) : Finset UInt64 :=
  (calls.map Call.parent).toFinset

theorem mem_parents {calls : List Call} {c : Call} (member : c ∈ calls) : c.parent ∈ parents calls :=
  List.mem_toFinset.mpr (List.mem_map_of_mem member)

theorem parents_mono {calls more : List Call} (sub : ∀ c ∈ calls, c ∈ more) :
    parents calls ⊆ parents more := by
  intro p member
  obtain ⟨c, inside, rfl⟩ := List.mem_map.mp (List.mem_toFinset.mp member)
  exact mem_parents (sub c inside)

section

variable {calls : List Call}

theorem run_empty {seen : Finset UInt64} (inside : parents calls ⊆ seen) (fits : seen.card ≤ kCapacity) :
    verdicts .empty calls = Lib.answers Entry.classified Call.parent (fun _ => {}) calls ∧
      Holds (afterCalls .empty calls)
        (calls.foldl (Lib.called Entry.classified Call.parent) fun _ => {}) ∧
      ∀ i, (afterCalls .empty calls i).used = true → (afterCalls .empty calls i).parent ∈ seen :=
  Holds.empty.run (fun _ used => absurd used Bool.false_ne_true) fits
    fun _ member => inside (mem_parents member)

def verdictsOn (parent : UInt64) (calls : List Call) : List Verdict :=
  ((calls.zip (verdicts .empty calls)).filter (·.1.parent = parent)).map Prod.snd

theorem verdictsOn_eq (few : (parents calls).card ≤ kCapacity) (parent : UInt64) :
    verdictsOn parent calls = Lib.alone Entry.classified {} (calls.filter (·.parent = parent)) := by
  unfold verdictsOn
  rw [(run_empty subset_rfl few).1]
  exact Lib.answers_of_key Entry.classified Call.parent _ calls parent

theorem verdict_next {d : Call} (few : (parents (calls ++ [d])).card ≤ kCapacity) :
    (onClassified (afterCalls .empty calls) d).1 =
      ((Lib.aged Entry.classified {} (calls.filter (·.parent = d.parent))).classified d).1 := by
  obtain ⟨-, holds, within⟩ :=
    run_empty (parents_mono fun c => List.mem_append_left [d]) few
  rw [(holds.onClassified within few (mem_parents (List.mem_append_right calls (by simp)))).1,
    Lib.foldl_called_apply]

end

/-! ### A parent that keeps disagreeing -/

theorem Entry.classified_seen (e : Entry) (c : Call) : (e.classified c).2.lastSeenFrame = c.frame := by
  unfold Entry.classified
  dsimp only
  split
  · rfl
  · split <;> split <;> rfl
  · rfl

def SoonAfter (earlier later : Call) : Prop :=
  later.frame.toNat - earlier.frame.toNat ≤ kUnseenFramesForNew.toNat

instance : DecidableRel SoonAfter := fun _ _ => inferInstanceAs (Decidable (_ ≤ _))

/-- One more call of a parent, on the frame it was last seen and the number of times it
has disagreed since it last agreed, or came back after it was not seen for long. -/
def countRow (row : Option UInt32 × Nat) (c : Call) : Option UInt32 × Nat :=
  let disagreed := if row.1.all fun last => kUnseenFramesForNew < c.frame - last then 0 else row.2
  (some c.frame, match c.cls with
    | .agree => 0
    | .disagree => disagreed + 1
    | .near => disagreed)

/-- The disagreements in a row, read off the calls of one parent. -/
def disagreements (calls : List Call) : Nat := (calls.foldl countRow (none, 0)).2

structure Entry.Counts (e : Entry) (row : Option UInt32 × Nat) : Prop where
  seen : row.1 = if e.used then some e.lastSeenFrame else none
  streak : e.streak.toNat = min row.2 (2 ^ 32 - 1)

theorem Entry.Counts.classified {e : Entry} {row : Option UInt32 × Nat} (counts : e.Counts row)
    (c : Call) : (e.classified c).2.Counts (countRow row c) := by
  have new : (row.1.all fun last => kUnseenFramesForNew < c.frame - last) = e.wasNew c.frame := by
    rw [counts.seen, Entry.wasNew]
    cases e.used <;> rfl
  have returned : (e.returned c.frame).streak.toNat =
      min (if e.wasNew c.frame then 0 else row.2) (2 ^ 32 - 1) := by
    unfold Entry.returned
    split
    · rfl
    · exact counts.streak
  unfold countRow
  rw [new]
  generalize (if e.wasNew c.frame then 0 else row.2) = disagreed at returned
  have seen : some c.frame = if (e.classified c).2.used then some (e.classified c).2.lastSeenFrame else none := by
    rw [Entry.classified_used, if_pos rfl, Entry.classified_seen]
  refine ⟨seen, ?_⟩
  unfold Entry.classified
  dsimp only
  generalize e.returned c.frame = e' at returned
  cases c.cls with
  | agree => rfl
  | near => exact returned
  | disagree =>
    have grown : (if e'.streak < 0xFFFFFFFF then e'.streak + 1 else e'.streak).toNat =
        min (disagreed + 1) (2 ^ 32 - 1) := by
      have top : UInt32.toNat 0xFFFFFFFF = 2 ^ 32 - 1 := rfl
      have one : UInt32.toNat 1 = 1 := rfl
      split
      · rename_i more
        rw [UInt32.lt_iff_toNat_lt] at more
        rw [UInt32.toNat_add]
        omega
      · rename_i full
        rw [UInt32.lt_iff_toNat_lt] at full
        omega
    dsimp only
    split <;> split <;> simp_all

theorem Entry.Counts.aged {e : Entry} {row : Option UInt32 × Nat} (counts : e.Counts row)
    (calls : List Call) : (Lib.aged Entry.classified e calls).Counts (calls.foldl countRow row) := by
  induction calls generalizing e row with
  | nil => exact counts
  | cons c calls ih => exact ih (counts.classified c)

theorem passed_of_disagreements {calls : List Call} (many : kMaxStreak.toNat < disagreements calls) :
    kMaxStreak < (Lib.aged Entry.classified {} calls).streak := by
  have fresh : ({} : Entry).Counts (none, 0) := ⟨rfl, rfl⟩
  have streak := (fresh.aged calls).streak
  have limit : kMaxStreak.toNat = 3 := rfl
  rw [UInt32.lt_iff_toNat_lt, streak]
  unfold disagreements at many
  omega

/-- An entry whose streak passed the limit at the frame it was last seen. -/
structure Entry.Blocked (e : Entry) (frame : UInt32) : Prop where
  used : e.used = true
  seen : e.lastSeenFrame = frame
  passed : kMaxStreak < e.streak

section

variable {e : Entry} {earlier c d : Call}

theorem Entry.Blocked.returned (blocked : e.Blocked earlier.frame) (soon : SoonAfter earlier c)
    (order : earlier.frame ≤ c.frame) : e.wasNew c.frame = false ∧ e.returned c.frame = e := by
  have recent : ¬kUnseenFramesForNew < c.frame - e.lastSeenFrame := by
    rw [UInt32.lt_iff_toNat_lt, blocked.seen, UInt32.toNat_sub_of_le _ _ order]
    exact Nat.not_lt.mpr soon
  have notNew : e.wasNew c.frame = false := by
    unfold Entry.wasNew
    rw [blocked.used, decide_eq_false recent]
    rfl
  refine ⟨notNew, ?_⟩
  unfold Entry.returned
  rw [notNew, if_neg Bool.false_ne_true]

theorem Entry.Blocked.refuses (blocked : e.Blocked earlier.frame) (soon : SoonAfter earlier c)
    (order : earlier.frame ≤ c.frame) : (e.classified c).1.eligible = false := by
  obtain ⟨-, same⟩ := blocked.returned soon order
  have passed : decide (e.streak ≤ kMaxStreak) = false :=
    decide_eq_false (UInt32.not_le.mpr blocked.passed)
  unfold Entry.classified
  dsimp only
  rw [same, passed, Bool.and_false]
  split
  · rfl
  · split <;> split <;> rfl
  · rfl

theorem Entry.Blocked.stays (blocked : e.Blocked earlier.frame) (soon : SoonAfter earlier c)
    (order : earlier.frame ≤ c.frame) (cls : c.cls ≠ .agree) : (e.classified c).2.Blocked c.frame := by
  obtain ⟨-, same⟩ := blocked.returned soon order
  have passed := blocked.passed
  unfold Entry.classified
  dsimp only
  rw [same]
  split
  · contradiction
  · by_cases more : e.streak < 0xFFFFFFFF
    · have grown : kMaxStreak < e.streak + 1 := by
        rw [UInt32.lt_iff_toNat_lt] at passed more ⊢
        rw [UInt32.toNat_add]
        have : UInt32.toNat 1 = 1 := rfl
        have : UInt32.toNat 0xFFFFFFFF = 0xFFFFFFFF := rfl
        omega
      rw [if_pos more]
      split
      · exact ⟨rfl, rfl, grown⟩
      · exact ⟨rfl, rfl, grown⟩
    · rw [if_neg more]
      split
      · exact ⟨rfl, rfl, passed⟩
      · exact ⟨rfl, rfl, passed⟩
  · exact ⟨rfl, rfl, passed⟩

theorem Entry.Blocked.through {between : List Call} (blocked : e.Blocked earlier.frame)
    (chain : List.IsChain SoonAfter (earlier :: between ++ [d]))
    (order : (earlier :: between ++ [d]).Pairwise (·.frame ≤ ·.frame))
    (apart : ∀ a ∈ between, a.cls ≠ .agree) :
    ((Lib.aged Entry.classified e between).classified d).1.eligible = false := by
  induction between generalizing e earlier with
  | nil =>
    obtain ⟨soon, -⟩ := List.isChain_cons_cons.mp chain
    exact blocked.refuses soon (List.rel_of_pairwise_cons order List.mem_cons_self)
  | cons c between ih =>
    obtain ⟨soon, chain⟩ := List.isChain_cons_cons.mp chain
    have next := List.rel_of_pairwise_cons order List.mem_cons_self
    exact ih (blocked.stays soon next (apart c List.mem_cons_self)) chain (List.Pairwise.of_cons order)
      fun a later => apart a (List.mem_cons_of_mem c later)

end

theorem aged_blocked {e : Entry} {calls : List Call} {c : Call}
    (passed : kMaxStreak < (Lib.aged Entry.classified e (calls ++ [c])).streak) :
    (Lib.aged Entry.classified e (calls ++ [c])).Blocked c.frame := by
  rw [Lib.aged_append] at passed ⊢
  exact ⟨Entry.classified_used .., Entry.classified_seen .., passed⟩

/-- The verdicts on a parent are those of a table that only it ever came by. A parent that
disagreed too often in a row is eligible again once it agreed or was not seen for long. -/
theorem parents_judged_alone (calls : List Call) (order : calls.Pairwise (·.frame ≤ ·.frame))
    (few : (parents calls).card ≤ kCapacity) :
    (∀ p, verdictsOn p calls = verdicts .empty (calls.filter (·.parent = p))) ∧
      ∀ before c between d rest, calls = before ++ c :: between ++ d :: rest → c.parent = d.parent →
        kMaxStreak.toNat < disagreements ((before ++ [c]).filter (·.parent = d.parent)) →
        (onClassified (afterCalls .empty (before ++ c :: between)) d).1.eligible = true →
        (∃ a ∈ between, a.parent = d.parent ∧ a.cls = .agree) ∨
          ¬List.IsChain SoonAfter ((c :: between ++ [d]).filter (·.parent = d.parent)) := by
  refine ⟨fun p => ?_, ?_⟩
  · have own : (parents (calls.filter (·.parent = p))).card ≤ kCapacity :=
      (Finset.card_le_card (parents_mono fun c member => (List.mem_filter.mp member).1)).trans few
    rw [verdictsOn_eq few, (run_empty subset_rfl own).1]
    have all : ∀ c ∈ calls.filter (·.parent = p), c.parent = p :=
      fun c member => of_decide_eq_true (List.mem_filter.mp member).2
    exact (Lib.answers_of_all Entry.classified Call.parent all (fun _ => {})).symm
  · rintro before c between d rest rfl same passed eligible
    by_contra neither
    obtain ⟨noAgree, chain⟩ := not_or.mp neither
    have keeps : ∀ calls : List Call, (c :: calls).filter (·.parent = d.parent) =
        c :: calls.filter (·.parent = d.parent) :=
      fun calls => List.filter_cons_of_pos (by simpa using same)
    have keepsLast : [d].filter (·.parent = d.parent) = [d] := by simp
    rw [not_not, List.filter_append, keeps, keepsLast] at chain
    have fewer : ∀ {some} more, some ++ more = before ++ c :: between ++ d :: rest →
        (parents some).card ≤ kCapacity := by
      intro some more split
      rw [← split] at few
      exact (Finset.card_le_card (parents_mono fun a => List.mem_append_left more)).trans few
    rw [List.filter_append, keeps, List.filter_nil] at passed
    rw [verdict_next (fewer rest (by simp)), List.append_cons, List.filter_append,
      List.filter_append, keeps, List.filter_nil, Lib.aged_append] at eligible
    have sorted : (c :: between.filter (·.parent = d.parent) ++ [d]).Pairwise (·.frame ≤ ·.frame) := by
      have inner : (c :: between ++ [d]).Pairwise (·.frame ≤ ·.frame) := order.sublist (by
        simp only [List.append_assoc, List.cons_append]
        exact (((List.Sublist.refl between).append
          (List.singleton_sublist.mpr List.mem_cons_self)).cons_cons c).trans
            (List.sublist_append_right before _))
      exact inner.sublist ((List.filter_sublist.cons_cons c).append (List.Sublist.refl [d]))
    have refused := (aged_blocked (passed_of_disagreements passed)).through chain sorted fun a member agrees =>
      noAgree ⟨a, (List.mem_filter.mp member).1, of_decide_eq_true (List.mem_filter.mp member).2, agrees⟩
    rw [refused] at eligible
    cases eligible

/-- Two parents that come by in turn, of which one disagrees four times in a row. -/
def mixedCalls : List Call :=
  [⟨7, 2, .disagree⟩, ⟨9, 2, .disagree⟩, ⟨7, 3, .disagree⟩, ⟨7, 4, .near⟩, ⟨7, 5, .disagree⟩,
    ⟨7, 5, .disagree⟩, ⟨9, 6, .agree⟩, ⟨7, 6, .near⟩]

theorem parents_judged_alone_mixed :
    (∀ p, verdictsOn p mixedCalls = verdicts .empty (mixedCalls.filter (·.parent = p))) ∧
      (onClassified (afterCalls .empty (mixedCalls.take 5 ++ ⟨7, 5, .disagree⟩ :: [⟨9, 6, .agree⟩]))
        ⟨7, 6, .near⟩).1.eligible = false := by
  obtain ⟨alone, blocked⟩ := parents_judged_alone mixedCalls (by decide) (by decide)
  refine ⟨alone, Bool.eq_false_iff.mpr fun eligible => ?_⟩
  rcases blocked (mixedCalls.take 5) ⟨7, 5, .disagree⟩ [⟨9, 6, .agree⟩] ⟨7, 6, .near⟩ [] rfl rfl
    (by decide +kernel) eligible with ⟨a, member, parent, -⟩ | gap
  · rw [List.mem_singleton.mp member] at parent
    exact absurd parent (by decide)
  · exact gap (by decide)

end EdvrPatch.Flash
