import Mathlib

/-! Cutting a list at its separators. The pieces are what is left of the
empty stretches: two texts with the same pieces differ in their separators
only. -/
namespace EdvrPatch.Lib

variable {α : Type} {sep : α → Bool}

def pieces (sep : α → Bool) (xs : List α) : List (List α) :=
  (xs.splitOnP sep).filter fun piece => !piece.isEmpty

@[simp] theorem pieces_nil : pieces sep [] = [] := rfl

theorem pieces_append_cons (xs ys : List α) {c : α} (separates : sep c = true) :
    pieces sep (xs ++ c :: ys) = pieces sep xs ++ pieces sep ys := by
  unfold pieces
  rw [List.splitOnP_append_cons xs ys separates, List.filter_append]

theorem pieces_cons {c : α} (separates : sep c = true) (ys : List α) :
    pieces sep (c :: ys) = pieces sep ys :=
  pieces_append_cons [] ys separates

theorem pieces_eq_singleton {xs : List α} (free : ∀ x ∈ xs, sep x = false) (ne : xs ≠ []) :
    pieces sep xs = [xs] := by
  unfold pieces
  rw [List.splitOnP_eq_singleton free]
  simp [ne]

theorem pieces_of_all {xs : List α} (all : ∀ x ∈ xs, sep x = true) (ys : List α) :
    pieces sep (xs ++ ys) = pieces sep ys := by
  induction xs with
  | nil => rfl
  | cons c xs ih =>
    rw [List.cons_append, pieces_cons (all c List.mem_cons_self)]
    exact ih fun x member => all x (List.mem_cons_of_mem _ member)

theorem pieces_append_append {xs seps ys : List α} (all : ∀ x ∈ seps, sep x = true)
    (ne : seps ≠ []) : pieces sep (xs ++ (seps ++ ys)) = pieces sep xs ++ pieces sep ys := by
  obtain ⟨c, rest, rfl⟩ := List.exists_cons_of_ne_nil ne
  rw [List.cons_append, pieces_append_cons _ _ (all c List.mem_cons_self),
    pieces_of_all fun x member => all x (List.mem_cons_of_mem _ member)]

theorem pieces_dropWhile (xs : List α) : pieces sep (xs.dropWhile sep) = pieces sep xs := by
  induction xs with
  | nil => rfl
  | cons c xs ih =>
    rw [List.dropWhile_cons]
    split
    · rename_i separates
      rw [pieces_cons separates, ih]
    · rfl

theorem takeWhile_free (xs : List α) : ∀ x ∈ xs.takeWhile (!sep ·), sep x = false := by
  intro x member
  simpa using List.mem_takeWhile_imp member

end EdvrPatch.Lib
