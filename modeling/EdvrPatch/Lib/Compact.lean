import Mathlib

/-! A buffer that is compacted in place: what is kept moves down to the next free place,
and the caller is told how many entries count from then on. -/
namespace EdvrPatch.Lib

variable {α : Type} (keep : α → Bool)

def compactStep (state : List α × Nat) (i : Nat) : List α × Nat :=
  match state.1[i]? with
  | none => state
  | some e => if keep e then (state.1.set state.2 e, state.2 + 1) else state

def compact (buffer : List α) (count : Nat) : List α × Nat :=
  (List.range count).foldl (compactStep keep) (buffer, 0)

theorem compact_spec (buffer : List α) (count : Nat) :
    (compact keep buffer count).1.length = buffer.length ∧
    (compact keep buffer count).2 ≤ count ∧
    (compact keep buffer count).1.take (compact keep buffer count).2 = (buffer.take count).filter keep ∧
    (compact keep buffer count).1.drop count = buffer.drop count := by
  induction count with
  | zero => exact ⟨rfl, Nat.le_refl 0, by simp [compact], rfl⟩
  | succ count ih =>
    have last : compact keep buffer (count + 1) = compactStep keep (compact keep buffer count) count := by
      simp [compact, List.range_succ]
    rw [last]
    generalize compact keep buffer count = state at ih
    obtain ⟨data, kept⟩ := state
    obtain ⟨length, le, counted, unread⟩ := ih
    have entry : data[count]? = buffer[count]? := by
      have same := congrArg (fun rest => rest[0]?) unread
      simpa using same
    have rest : data.drop (count + 1) = buffer.drop (count + 1) := by
      have same := congrArg (List.drop 1) unread
      rwa [List.drop_drop, List.drop_drop] at same
    cases isEntry : buffer[count]? with
    | none =>
      have short := List.getElem?_eq_none_iff.mp isEntry
      rw [isEntry] at entry
      simp only [compactStep, entry]
      refine ⟨length, Nat.le_succ_of_le le, ?_, rest⟩
      rw [counted, List.take_of_length_le short, List.take_of_length_le (Nat.le_succ_of_le short)]
    | some e =>
      rw [isEntry] at entry
      have longer : buffer.take (count + 1) = buffer.take count ++ [e] := by
        rw [List.take_add_one, isEntry]
        rfl
      rw [longer, List.filter_append, ← counted]
      have room : kept < data.length := Nat.lt_of_le_of_lt le (List.getElem?_eq_some_iff.mp entry).1
      cases isKept : keep e with
      | true =>
        simp only [compactStep, entry, isKept, if_true]
        refine ⟨by rw [List.length_set, length], Nat.succ_le_succ le, ?_, ?_⟩
        · rw [List.take_add_one, List.getElem?_set_self room, List.take_set_of_le (Nat.le_refl kept)]
          simp [isKept]
        · rw [List.drop_set_of_lt (Nat.lt_succ_of_le le), rest]
      | false =>
        simp only [compactStep, entry, isKept, Bool.false_eq_true, if_false]
        exact ⟨length, Nat.le_succ_of_le le, by simp [isKept], rest⟩

theorem compact_take (buffer : List α) (count : Nat) :
    (compact keep buffer count).1.take (compact keep buffer count).2 = (buffer.take count).filter keep :=
  (compact_spec keep buffer count).2.2.1

end EdvrPatch.Lib
