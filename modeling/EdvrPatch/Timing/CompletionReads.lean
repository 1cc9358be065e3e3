import EdvrPatch.Timing.CompletionQueue

/-! Readers of the completion queues, over runs of fewer than `2 ^ 64` publications. A
reader has got, or has counted as dropped, every value up to its cursor. -/
namespace EdvrPatch.Timing

open CompletionQueue

variable {α β : Type}

theorem toNat_succ {a : UInt64} (small : a.toNat + 1 < 2 ^ 64) : (a + 1).toNat = a.toNat + 1 := by
  exact Nat.mod_eq_of_lt small

theorem toNat_pred {a : UInt64} (positive : 1 ≤ a.toNat) : (a - 1).toNat = a.toNat - 1 :=
  UInt64.toNat_sub_of_le _ _ (UInt64.le_iff_toNat_le.mpr positive)

theorem slot_ofNat {k : Nat} (small : k < 2 ^ 64) : slot (UInt64.ofNat k) = k % 256 := by
  rw [slot, UInt64.toNat_mod, UInt64.toNat_ofNat_of_lt' small]
  rfl

/-- The ring has the values that were published since the floor, of the last 256. -/
structure Holds (published : List α) (q : CompletionQueue α) : Prop where
  next : q.nextCompletion.toNat = published.length + 1
  floor : 1 ≤ q.completionFloor.toNat ∧ q.completionFloor.toNat ≤ published.length + 1
  slots : ∀ k v, q.completionFloor.toNat ≤ k + 1 → published[k]? = some v →
    published.length ≤ k + 256 → q.completions ((k + 1) % 256) = ⟨UInt64.ofNat (k + 1), v⟩

namespace Holds

variable {published : List α} {q : CompletionQueue α}

theorem fresh (blank : α) : Holds [] (CompletionQueue.fresh blank) :=
  ⟨rfl, ⟨Nat.le_refl 1, Nat.le_refl 1⟩, by simp⟩

theorem publish (h : Holds published q) (value : α) (few : published.length + 2 < 2 ^ 64) :
    Holds (published ++ [value]) (q.publish value) := by
  have isNext : q.nextCompletion = UInt64.ofNat (published.length + 1) := by
    rw [← h.next, UInt64.ofNat_toNat]
  refine ⟨?_, ?_, fun k v past found near => ?_⟩
  · rw [List.length_append, List.length_singleton]
    exact (toNat_succ (by rw [h.next]; exact few)).trans (by rw [h.next])
  · rw [List.length_append, List.length_singleton]
    exact ⟨h.floor.1, Nat.le_succ_of_le h.floor.2⟩
  · unfold CompletionQueue.publish
    dsimp only
    rw [List.length_append, List.length_singleton] at near
    rw [isNext, slot_ofNat (by omega)]
    by_cases last : k = published.length
    · subst last
      rw [List.getElem?_concat_length] at found
      rw [Function.update_self, Option.some.inj found]
    · have small : k < published.length := by
        have := (List.getElem?_eq_some_iff.mp found).1
        rw [List.length_append, List.length_singleton] at this
        omega
      rw [List.getElem?_append_left small] at found
      -- Two of the last 256 ordinals have different slots.
      rw [Function.update_of_ne (by omega)]
      exact h.slots k v past found (by omega)

theorem abandon (h : Holds published q) (blank : α) : Holds published (q.abandon blank) := by
  refine ⟨h.next, ?_, fun k v past found _ => ?_⟩
  · change 1 ≤ q.nextCompletion.toNat ∧ q.nextCompletion.toNat ≤ _
    rw [h.next]
    exact ⟨Nat.le_add_left .., Nat.le_refl _⟩
  · have small := (List.getElem?_eq_some_iff.mp found).1
    change q.nextCompletion.toNat ≤ k + 1 at past
    rw [h.next] at past
    omega

theorem latest (h : Holds published q) : q.latest.toNat = published.length := by
  have nonzero : q.nextCompletion ≠ 0 := by
    intro isZero
    have := h.next
    rw [isZero] at this
    cases this
  rw [CompletionQueue.latest, if_pos nonzero, toNat_pred (by rw [h.next]; omega), h.next]
  rfl

end Holds

theorem oldestHeld_toNat (latest : UInt64) :
    (oldestHeld latest).toNat = if 256 ≤ latest.toNat then latest.toNat - 255 else 1 := by
  unfold oldestHeld
  have same : kCompletionCapacity ≤ latest ↔ 256 ≤ latest.toNat := UInt64.le_iff_toNat_le
  split
  · rename_i full
    have big := same.mp full
    have isSub : (latest - kCompletionCapacity).toNat = latest.toNat - 256 :=
      UInt64.toNat_sub_of_le _ _ full
    have bound := latest.toNat_lt
    rw [if_pos big, toNat_succ (by omega), isSub]
    omega
  · rename_i part
    rw [if_neg fun big => part (same.mpr big)]
    rfl

theorem afterCursor_toNat {cursor : UInt64} (small : cursor.toNat + 1 < 2 ^ 64) :
    (afterCursor cursor).toNat = cursor.toNat + 1 := by
  unfold afterCursor
  rw [if_neg, toNat_succ small]
  intro isMax
  rw [isMax] at small
  exact absurd small (by decide)

/-! ### One read -/

/-- What a read does to a reader at `cursor`: it passes to `first`, and takes the `count`
values from there. -/
structure Reads (published : List α) (view : Nat → α → β) (reader : CompletionReader)
    (read : CompletionRead β) (first : Nat) : Prop where
  passes : reader.cursor.toNat ≤ first
  dropped : read.reader.dropped.toNat = reader.dropped.toNat + (first - reader.cursor.toNat)
  cursor : read.reader.cursor.toNat = first + read.count.toNat
  within : first + read.count.toNat ≤ published.length
  out : ∃ values : List (UInt64 × β), read.out = values.map some ∧
    values.length = read.count.toNat ∧
    ∀ i d, values[i]? = some d → d.1.toNat = first + i + 1 ∧
      ∃ v, published[first + i]? = some v ∧ d.2 = view i v

variable {published : List α} {q : CompletionQueue α}

theorem readItem_holds (h : Holds published q) (few : published.length + 1 < 2 ^ 64)
    (view : Nat → α → β) {start : UInt64} {first i : Nat} (isStart : start.toNat = first + 1)
    (past : q.completionFloor.toNat ≤ first + 1) (near : published.length ≤ first + 256) {v : α}
    (found : published[first + i]? = some v) (run : CompletionReader × List (Option (UInt64 × β))) :
    readItem q view start run i = ({ run.1 with cursor := UInt64.ofNat (first + i + 1) },
      run.2 ++ [some (UInt64.ofNat (first + i + 1), view i v)]) := by
  have small := (List.getElem?_eq_some_iff.mp found).1
  have ordinal : start + UInt64.ofNat i = UInt64.ofNat (first + i + 1) := by
    have start' : start = UInt64.ofNat (first + 1) := by
      rw [← isStart, UInt64.ofNat_toNat]
    rw [start', ← UInt64.ofNat_add]
    congr 1
    omega
  have item := h.slots (first + i) v (by omega) found (by omega)
  unfold readItem
  dsimp only
  rw [ordinal, slot_ofNat (by omega), item, if_neg (by simp)]

theorem readLoop (h : Holds published q) (few : published.length + 1 < 2 ^ 64)
    (view : Nat → α → β) {start : UInt64} {first : Nat} (isStart : start.toNat = first + 1)
    (past : q.completionFloor.toNat ≤ first + 1) (near : published.length ≤ first + 256)
    (reader : CompletionReader) (isFirst : reader.cursor.toNat = first) {count : Nat}
    (fits : first + count ≤ published.length) :
    ∃ values : List (UInt64 × β), (List.range count).foldl (readItem q view start) (reader, []) =
        ({ reader with cursor := UInt64.ofNat (first + count) }, values.map some) ∧
      values.length = count ∧
      ∀ i d, values[i]? = some d → d.1.toNat = first + i + 1 ∧
        ∃ v, published[first + i]? = some v ∧ d.2 = view i v := by
  induction count with
  | zero =>
    refine ⟨[], ?_, rfl, by simp⟩
    rw [Nat.add_zero, ← isFirst, UInt64.ofNat_toNat]
    rfl
  | succ count ih =>
    obtain ⟨values, isRun, isCount, each⟩ := ih (by omega)
    have inside : first + count < published.length := fits
    obtain ⟨v, found⟩ : ∃ v, published[first + count]? = some v :=
      ⟨_, List.getElem?_eq_getElem inside⟩
    refine ⟨values ++ [(UInt64.ofNat (first + count + 1), view count v)],
      ?_, by simp [isCount], fun i d at' => ?_⟩
    · rw [List.range_succ, List.foldl_append, isRun, List.foldl_cons, List.foldl_nil,
        readItem_holds h few view isStart past near found, List.map_append]
      rfl
    · by_cases last : i = count
      · subst last
        rw [← isCount, List.getElem?_concat_length, isCount] at at'
        cases at'
        exact ⟨UInt64.toNat_ofNat_of_lt' (show _ < 2 ^ 64 by omega), _, found, rfl⟩
      · have shorter : i < values.length := by
          have := (List.getElem?_eq_some_iff.mp at').1
          rw [List.length_append, List.length_singleton] at this
          omega
        rw [List.getElem?_append_left shorter] at at'
        exact each i d at'

theorem readCompletions_reads (h : Holds published q) (few : published.length + 1 < 2 ^ 64)
    {oldest : UInt64} (isOldest : oldest = max q.completionFloor (oldestHeld q.latest))
    (view : Nat → α → β) {reader : CompletionReader}
    (behind : reader.cursor.toNat ≤ published.length)
    (room : reader.dropped.toNat ≤ reader.cursor.toNat) (hasOut : Bool) (capacity : UInt32) :
    ∃ first, Reads published view reader
        (readCompletions oldest q view reader hasOut capacity) first ∧
      (hasOut → (readCompletions oldest q view reader hasOut capacity).count < capacity →
        (readCompletions oldest q view reader hasOut capacity).reader.cursor.toNat =
          published.length) := by
  have latest := h.latest
  have isOld : oldest.toNat = max q.completionFloor.toNat
      (if 256 ≤ published.length then published.length - 255 else 1) := by
    rw [isOldest, UInt64.toNat_max, oldestHeld_toNat, latest]
  have floor := h.floor
  have after : (afterCursor reader.cursor).toNat = reader.cursor.toNat + 1 := afterCursor_toNat (by omega)
  unfold readCompletions
  split
  · rename_i nothing
    refine ⟨reader.cursor.toNat, ⟨Nat.le_refl _, by simp, rfl, behind, [], rfl, rfl, by simp⟩,
      fun given fewer => ?_⟩
    simp only [given, Bool.not_true, Bool.false_or, decide_eq_true_eq] at nothing
    rw [nothing] at fewer
    exact absurd (UInt32.lt_iff_toNat_lt.mp fewer) (Nat.not_lt_zero _)
  · dsimp only
    generalize isFirst : max reader.cursor.toNat (oldest.toNat - 1) = first
    have skipped : (reader.skip oldest).cursor.toNat = first ∧
        (reader.skip oldest).dropped.toNat =
          reader.dropped.toNat + (first - reader.cursor.toNat) := by
      unfold CompletionReader.skip
      split
      · rename_i lapped
        have lapped : reader.cursor.toNat + 1 < oldest.toNat :=
          after ▸ UInt64.lt_iff_toNat_lt.mp lapped
        have gap : (oldest - afterCursor reader.cursor).toNat =
            oldest.toNat - (reader.cursor.toNat + 1) := by
          rw [UInt64.toNat_sub_of_le _ _ (UInt64.le_iff_toNat_le.mpr (by omega)), after]
        refine ⟨(toNat_pred (by omega)).trans (by omega), ?_⟩
        dsimp only
        rw [UInt64.toNat_add, gap, Nat.mod_eq_of_lt (by split at isOld <;> omega)]
        omega
      · rename_i kept
        have kept : ¬reader.cursor.toNat + 1 < oldest.toNat := fun lt =>
          kept (UInt64.lt_iff_toNat_lt.mpr (after.symm ▸ lt))
        exact ⟨by omega, by omega⟩
    have bound : first ≤ published.length := by split at isOld <;> omega
    have start : (max (afterCursor (reader.skip oldest).cursor) oldest).toNat = first + 1 := by
      rw [UInt64.toNat_max, afterCursor_toNat (by omega), skipped.1]
      omega
    generalize max (afterCursor (reader.skip oldest).cursor) oldest = begins at start
    have available : (if begins ≤ q.latest then q.latest - begins + 1 else 0).toNat =
        published.length - first := by
      split
      · rename_i le
        have le' := UInt64.le_iff_toNat_le.mp le
        have isSub : (q.latest - begins).toNat = published.length - (first + 1) := by
          rw [UInt64.toNat_sub_of_le _ _ le, start, latest]
        rw [toNat_succ (by omega), isSub]
        omega
      · rename_i gt
        have gt : ¬first + 1 ≤ published.length := fun le =>
          gt (UInt64.le_iff_toNat_le.mpr (by rw [start, latest]; exact le))
        rw [show (0 : UInt64).toNat = 0 from rfl]
        omega
    generalize (if begins ≤ q.latest then q.latest - begins + 1 else 0) = left at available
    have count : (min capacity.toUInt64 left).toUInt32.toNat =
        min capacity.toNat (published.length - first) := by
      have least : (min capacity.toUInt64 left).toNat =
          min capacity.toNat (published.length - first) := by
        rw [UInt64.toNat_min, available, UInt32.toNat_toUInt64]
      have bound := capacity.toNat_lt
      rw [UInt64.toNat_toUInt32, least]
      exact Nat.mod_eq_of_lt (by omega)
    have fits : first + (min capacity.toUInt64 left).toUInt32.toNat ≤ published.length := by omega
    obtain ⟨values, isRun, isCount, each⟩ := readLoop h few view start
      (by split at isOld <;> omega) (by split at isOld <;> omega) (reader.skip oldest) skipped.1 fits
    rw [isRun]
    dsimp only
    have isCursor : (UInt64.ofNat (first + (min capacity.toUInt64 left).toUInt32.toNat)).toNat =
        first + (min capacity.toUInt64 left).toUInt32.toNat :=
      UInt64.toNat_ofNat_of_lt' (show _ < 2 ^ 64 by omega)
    refine ⟨first, ⟨by omega, skipped.2, isCursor, by dsimp only; omega, values, rfl, isCount, each⟩,
      fun _ fewer => ?_⟩
    have fewer := UInt32.lt_iff_toNat_lt.mp fewer
    omega

/-! ### Runs -/

/-- Up to the cursor every ordinal was delivered, once, or counted as dropped. The rest
is pending. -/
structure Accounts (run : QueueRun α β) : Prop where
  ascend : (run.delivered.map fun d => d.1.toNat).Pairwise (· < ·)
  taken : ∀ d ∈ run.delivered, 1 ≤ d.1.toNat ∧ d.1.toNat ≤ run.reader.cursor.toNat
  pending : run.reader.cursor.toNat ≤ run.published.length
  dropped : run.reader.dropped.toNat =
    ((Finset.Icc 1 run.reader.cursor.toNat).filter
      (· ∉ run.delivered.map fun d => d.1.toNat)).card

/-- What a read returns: as many slots as it counts, all of them written, each with a
value that was published under its ordinal. If it had room for more, nothing is pending. -/
structure Delivers (view : Nat → α → β) (run : QueueRun α β) (hasOut : Bool) (capacity : UInt32)
    (read : CompletionRead β) : Prop where
  counted : read.out.length = read.count.toNat
  written : ∀ entry ∈ read.out, entry.isSome
  value : ∀ i d, read.out[i]? = some (some d) →
    ∃ v, run.published[d.1.toNat - 1]? = some v ∧ d.2 = view i v
  exhausts : hasOut → read.count < capacity → read.reader.cursor.toNat = run.published.length

structure Keeps (run : QueueRun α β) : Prop where
  holds : Holds run.published run.queue
  ascend : (run.delivered.map fun d => d.1.toNat).Pairwise (· < ·)
  taken : ∀ d ∈ run.delivered, 1 ≤ d.1.toNat ∧ d.1.toNat ≤ run.reader.cursor.toNat
  pending : run.reader.cursor.toNat ≤ run.published.length
  counted : run.reader.dropped.toNat + run.delivered.length = run.reader.cursor.toNat

namespace Keeps

variable {run : QueueRun α β}

theorem accounts (h : Keeps run) : Accounts run := by
  refine ⟨h.ascend, h.taken, h.pending, ?_⟩
  have nodup : (run.delivered.map fun d => d.1.toNat).Nodup :=
    h.ascend.imp Nat.ne_of_lt
  have isTaken : (Finset.Icc 1 run.reader.cursor.toNat).filter
      (· ∈ run.delivered.map fun d => d.1.toNat) =
        (run.delivered.map fun d => d.1.toNat).toFinset := by
    ext k
    simp only [Finset.mem_filter, Finset.mem_Icc, List.mem_toFinset, and_iff_right_iff_imp,
      List.mem_map]
    rintro ⟨d, mem, rfl⟩
    exact h.taken d mem
  have split := Finset.card_filter_add_card_filter_not (s := Finset.Icc 1 run.reader.cursor.toNat)
    (· ∈ run.delivered.map fun d => d.1.toNat)
  rw [isTaken, List.toFinset_card_of_nodup nodup, List.length_map, Nat.card_Icc] at split
  have := h.counted
  omega

theorem read (h : Keeps run) {view : Nat → α → β} {read : CompletionRead β} {first : Nat}
    (reads : Reads run.published view run.reader read first) :
    Keeps { run with
      reader := read.reader, delivered := run.delivered ++ read.out.filterMap id } := by
  obtain ⟨passes, dropped, cursor, within, values, isOut, isCount, each⟩ := reads
  have isValues : read.out.filterMap id = values := by
    rw [isOut, List.filterMap_map]
    exact List.filterMap_some
  have ordinal : ∀ d ∈ values, first < d.1.toNat ∧ d.1.toNat ≤ first + read.count.toNat := by
    intro d mem
    obtain ⟨i, at'⟩ := List.mem_iff_getElem?.mp mem
    have small := (List.getElem?_eq_some_iff.mp at').1
    have := (each i d at').1
    omega
  rw [isValues]
  refine ⟨h.holds, ?_, fun d mem => ?_, by dsimp only; omega, ?_⟩
  · rw [List.map_append, List.pairwise_append]
    refine ⟨h.ascend, ?_, ?_⟩
    · rw [List.pairwise_iff_getElem]
      intro i j small small' lt
      rw [List.length_map] at small small'
      have atI := each i _ (List.getElem?_eq_getElem small)
      have atJ := each j _ (List.getElem?_eq_getElem small')
      rw [List.getElem_map, List.getElem_map, atI.1, atJ.1]
      omega
    · intro a old b new
      obtain ⟨d, mem, rfl⟩ := List.mem_map.mp old
      obtain ⟨e, mem', rfl⟩ := List.mem_map.mp new
      have := (h.taken d mem).2
      have := (ordinal e mem').1
      omega
  · dsimp only at mem ⊢
    rcases List.mem_append.mp mem with old | new
    · have := h.taken d old
      omega
    · have := ordinal d new
      omega
  · have := h.counted
    rw [List.length_append, dropped, cursor, isCount]
    omega

end Keeps

section Runs

variable {ρ : Type} {blank : α} {reads : ReadFunction α ρ β} {view : ρ → Nat → α → β}
  {abandons : Prop}

/-- The read function takes everything from the floor on; where the queue cannot be
abandoned it need not know of the floor. -/
def TakesFrom (reads : ReadFunction α ρ β) (view : ρ → Nat → α → β) (abandons : Prop) : Prop :=
  ∀ q x, abandons ∨ q.completionFloor = 1 →
    reads q x = readCompletions (max q.completionFloor (oldestHeld q.latest)) q (view x)

theorem publish_published (blank : α) (reads : ReadFunction α ρ β) (run : QueueRun α β)
     (call : QueueCall α ρ) :
    run.published.length ≤ (run.step blank reads call).published.length := by
  cases call with
  | publish value => simp [QueueRun.step]
  | abandon => exact Nat.le_refl _
  | read x hasOut capacity => exact Nat.le_refl _

theorem queueRun_keeps (takes : TakesFrom reads view abandons) (calls : List (QueueCall α ρ))
    (allowed : .abandon ∈ calls → abandons)
    (few : (queueRun blank reads calls).published.length + 1 < 2 ^ 64) :
    Keeps (queueRun blank reads calls) ∧
      (abandons ∨ (queueRun blank reads calls).queue.completionFloor = 1) := by
  induction calls using List.reverseRecOn with
  | nil => exact ⟨⟨.fresh blank, .nil, by simp [queueRun], Nat.le_refl _, rfl⟩, .inr rfl⟩
  | append_singleton calls call ih =>
    have isStep : queueRun blank reads (calls ++ [call]) =
        (queueRun blank reads calls).step blank reads call := by
      rw [queueRun, List.foldl_append]
      rfl
    rw [isStep] at few ⊢
    have fewer := publish_published blank reads (queueRun blank reads calls) call
    obtain ⟨keeps, floor⟩ := ih (fun mem => allowed (List.mem_append_left _ mem)) (by omega)
    generalize queueRun blank reads calls = run at few fewer keeps floor ⊢
    cases call with
    | publish value =>
      have few : run.published.length + 2 < 2 ^ 64 := by
        simpa [QueueRun.step] using few
      exact ⟨{ keeps with
        holds := keeps.holds.publish value few
        pending := by simpa [QueueRun.step] using Nat.le_succ_of_le keeps.pending }, floor⟩
    | abandon =>
      have may := allowed (List.mem_append_right _ (List.mem_singleton.mpr rfl))
      exact ⟨{ keeps with holds := keeps.holds.abandon blank }, .inl may⟩
    | read x hasOut capacity =>
      have counted := keeps.counted
      obtain ⟨first, does, -⟩ := readCompletions_reads keeps.holds few rfl (view x) keeps.pending
        (by omega) hasOut capacity
      unfold QueueRun.step
      dsimp only
      rw [takes run.queue x floor]
      exact ⟨keeps.read does, floor⟩

theorem queueRun_delivers (takes : TakesFrom reads view abandons) (calls : List (QueueCall α ρ))
    (allowed : .abandon ∈ calls → abandons)
    (few : (queueRun blank reads calls).published.length + 1 < 2 ^ 64) (x : ρ) (hasOut : Bool)
    (capacity : UInt32) :
    Delivers (view x) (queueRun blank reads calls) hasOut capacity
      (reads (queueRun blank reads calls).queue x (queueRun blank reads calls).reader hasOut
        capacity) := by
  obtain ⟨keeps, floor⟩ := queueRun_keeps takes calls allowed few
  generalize queueRun blank reads calls = run at few keeps floor ⊢
  have counted := keeps.counted
  rw [takes run.queue x floor]
  obtain ⟨first, does, exhausts⟩ := readCompletions_reads keeps.holds few rfl (view x) keeps.pending
    (by omega) hasOut capacity
  obtain ⟨values, isOut, isCount, each⟩ := does.out
  refine ⟨by rw [isOut, List.length_map, isCount], fun entry mem => ?_, fun i d at' => ?_, exhausts⟩
  · rw [isOut] at mem
    obtain ⟨d, -, rfl⟩ := List.mem_map.mp mem
    rfl
  · rw [isOut, List.getElem?_map] at at'
    obtain ⟨e, atI, isSome⟩ := Option.map_eq_some_iff.mp at'
    cases isSome
    obtain ⟨isOrdinal, v, found, isView⟩ := each i d atI
    refine ⟨v, ?_, isView⟩
    rw [isOrdinal, Nat.add_sub_cancel]
    exact found

end Runs

theorem nativeReads_takes : TakesFrom nativeReads (fun _ _ value => value) False := by
  rintro q x (impossible | floor)
  · exact impossible.elim
  · have atLeast : max (1 : UInt64) (oldestHeld q.latest) = oldestHeld q.latest := by
      apply UInt64.toNat_inj.mp
      have := oldestHeld_toNat q.latest
      rw [UInt64.toNat_max, show (1 : UInt64).toNat = 1 from rfl]
      split at this <;> omega
    rw [floor, atLeast]
    rfl

theorem gpuReads_takes : TakesFrom gpuReads (fun poisoned i => Gpu.clipped (poisoned i)) True :=
  fun _ _ _ => rfl

/-- Both queues, over fewer than `2 ^ 64 - 1` publications: of the published ordinals
each was delivered once, or is pending, or was counted once as dropped, and a read counts
what it writes. Only the GPU queue is ever abandoned. -/
theorem completions_accounted :
    (∀ calls : List (QueueCall NativeTimingSnapshot Unit), .abandon ∉ calls →
      (queueRun {} nativeReads calls).published.length + 1 < 2 ^ 64 →
      Accounts (queueRun {} nativeReads calls) ∧
      ∀ hasOut capacity, Delivers (fun _ value => value) (queueRun {} nativeReads calls) hasOut
        capacity (nativeTimingReadCompletions (queueRun {} nativeReads calls).queue
          (queueRun {} nativeReads calls).reader hasOut capacity)) ∧
    ∀ calls : List (QueueCall Gpu.GpuSpanResult (Nat → Nat)),
      (queueRun {} gpuReads calls).published.length + 1 < 2 ^ 64 →
      Accounts (queueRun {} gpuReads calls) ∧
      ∀ poisoned hasOut capacity, Delivers (fun i => Gpu.clipped (poisoned i))
        (queueRun {} gpuReads calls) hasOut capacity
        (gpuFrameReadCompletions (queueRun {} gpuReads calls).queue poisoned
          (queueRun {} gpuReads calls).reader hasOut capacity) := by
  refine ⟨fun calls never few => ?_, fun calls few => ?_⟩
  · have allowed : .abandon ∈ calls → False := never
    exact ⟨(queueRun_keeps nativeReads_takes calls allowed few).1.accounts,
      fun hasOut capacity => queueRun_delivers nativeReads_takes calls allowed few () hasOut capacity⟩
  · have allowed : .abandon ∈ calls → True := fun _ => trivial
    exact ⟨(queueRun_keeps gpuReads_takes calls allowed few).1.accounts,
      fun poisoned hasOut capacity =>
        queueRun_delivers gpuReads_takes calls allowed few poisoned hasOut capacity⟩

/-- One value is read, one is lost to an abandon, and one is pending. -/
theorem completions_accounted_sample :
    Accounts (queueRun {} gpuReads
      [.publish {}, .read (fun _ => 0) true 4, .publish {}, .abandon, .publish {},
        .read (fun _ => 0) true 1]) :=
  (completions_accounted.2 _ (by decide)).1

def publishedOnly (n : Nat) : QueueRun NativeTimingSnapshot NativeTimingSnapshot :=
  queueRun {} nativeReads (List.replicate n (.publish {}))

theorem publishedOnly_eq (n : Nat) :
    (publishedOnly n).queue.nextCompletion = 1 + UInt64.ofNat n ∧
      (publishedOnly n).reader = {} ∧ (publishedOnly n).published.length = n := by
  induction n with
  | zero => exact ⟨rfl, rfl, rfl⟩
  | succ n ih =>
    have isStep : publishedOnly (n + 1) =
        (publishedOnly n).step {} nativeReads (.publish {}) := by
      rw [publishedOnly, List.replicate_succ', queueRun, List.foldl_append]
      rfl
    obtain ⟨next, reader, length⟩ := ih
    rw [isStep]
    refine ⟨?_, reader, ?_⟩
    · change (publishedOnly n).queue.nextCompletion + 1 = _
      rw [next, UInt64.ofNat_add, UInt64.add_assoc]
      rfl
    · change ((publishedOnly n).published ++ [_]).length = n + 1
      rw [List.length_append, length]
      rfl

theorem publishedOnly_read {n : Nat} (wraps : UInt64.ofNat n = 0) :
    nativeTimingReadCompletions (publishedOnly n).queue (publishedOnly n).reader true 1 =
      ⟨{}, 0, []⟩ := by
  obtain ⟨next, reader, -⟩ := publishedOnly_eq n
  have latest : (publishedOnly n).queue.latest = 0 := by
    rw [CompletionQueue.latest, next, wraps]
    decide
  rw [nativeTimingReadCompletions, readCompletions, latest, reader]
  rfl

/-- After `2 ^ 64` publications the ordinals begin again, and a reader that looks for the
first time sees an empty queue. -/
theorem completions_lost_on_wrap : ¬ ∀ (calls : List (QueueCall NativeTimingSnapshot Unit))
    (capacity : UInt32), .abandon ∉ calls →
      (nativeTimingReadCompletions (queueRun {} nativeReads calls).queue
        (queueRun {} nativeReads calls).reader true capacity).count < capacity →
      (nativeTimingReadCompletions (queueRun {} nativeReads calls).queue
        (queueRun {} nativeReads calls).reader true capacity).reader.cursor.toNat =
          (queueRun {} nativeReads calls).published.length := by
  intro claim
  have lost : ∀ n, UInt64.ofNat n = 0 → 0 = n := by
    intro n wraps
    have never : (.abandon : QueueCall NativeTimingSnapshot Unit) ∉
        List.replicate n (.publish {}) := by
      intro mem
      cases (List.mem_replicate.mp mem).2
    have all := claim (List.replicate n (.publish {})) 1 never
    rw [← publishedOnly, publishedOnly_read wraps, (publishedOnly_eq n).2.2] at all
    exact all (by decide)
  exact absurd (lost (2 ^ 64) (by decide)) (by decide)

end EdvrPatch.Timing
