import Mathlib

/-! The first place in a text, from an index on, where a needle stands, and what of it can
depend on the text behind a prefix. -/
namespace EdvrPatch.Lib

variable {α : Type} {text pre rest needle : List α} {i k : Nat}

def Stands (text needle : List α) (k : Nat) : Prop :=
  needle <+: text.drop k

theorem Stands.fits (stands : Stands text needle k) (solid : needle ≠ []) :
    k + needle.length ≤ text.length := by
  have longer := stands.length_le
  rw [List.length_drop] at longer
  have positive := List.length_pos_of_ne_nil solid
  omega

theorem stands_append (inside : k + needle.length ≤ pre.length) :
    Stands (pre ++ rest) needle k ↔ Stands pre needle k := by
  unfold Stands
  rw [List.drop_append_of_le_length (by omega)]
  constructor
  · intro stands
    refine List.prefix_of_prefix_length_le stands (List.prefix_append _ _) ?_
    rw [List.length_drop]
    omega
  · exact List.prefix_append_of_prefix

section

variable [DecidableEq α]

def find (text needle : List α) (i : Nat) : Option Nat :=
  (List.range' i (text.length + 1 - i)).find? fun k => needle.isPrefixOf (text.drop k)

theorem find_some (found : find text needle i = some k) :
    i ≤ k ∧ Stands text needle k ∧ ∀ j, i ≤ j → j < k → ¬Stands text needle j := by
  obtain ⟨stands, front, back, split, none⟩ := List.find?_eq_some_iff_append.mp found
  have size := congrArg List.length split
  have index : i + front.length = k := by
    have here : (List.range' i (text.length + 1 - i))[front.length]? = some k := by
      rw [split]
      simp
    obtain ⟨_, same⟩ := List.getElem?_eq_some_iff.mp here
    rw [List.getElem_range'] at same
    omega
  refine ⟨by omega, List.isPrefixOf_iff_prefix.mp stands, fun j later before stands => ?_⟩
  have among : j ∈ front := by
    have here : (List.range' i (text.length + 1 - i))[j - i]? = some j := by
      rw [List.length_range', List.length_append, List.length_cons] at size
      rw [List.getElem?_range' (by omega)]
      congr 1
      omega
    rw [split, List.getElem?_append_left (by omega)] at here
    exact List.mem_of_getElem? here
  have refused := none j among
  rw [List.isPrefixOf_iff_prefix.mpr stands] at refused
  exact absurd refused (by decide)

theorem find_none (missing : find text needle i = none) (solid : needle ≠ []) :
    ∀ j, i ≤ j → ¬Stands text needle j := by
  intro j later stands
  have inside : j < text.length := by
    have longer := stands.length_le
    rw [List.length_drop] at longer
    have positive := List.length_pos_of_ne_nil solid
    omega
  have refused := List.find?_eq_none.mp missing j (by rw [List.mem_range'_1]; omega)
  exact refused (List.isPrefixOf_iff_prefix.mpr stands)

theorem find_eq_some (solid : needle ≠ []) (stands : Stands text needle k) (later : i ≤ k)
    (first : ∀ j, i ≤ j → j < k → ¬Stands text needle j) : find text needle i = some k := by
  cases found : find text needle i with
  | none => exact absurd stands (find_none found solid k later)
  | some j =>
    obtain ⟨laterJ, standsJ, firstJ⟩ := find_some found
    rcases Nat.lt_trichotomy j k with before | same | after
    · exact absurd standsJ (first j laterJ before)
    · rw [same]
    · exact absurd stands (firstJ k later after)

theorem find_append_of_some (solid : needle ≠ []) (found : find pre needle i = some k) :
    find (pre ++ rest) needle i = some k := by
  obtain ⟨later, stands, first⟩ := find_some found
  have fits := stands.fits solid
  refine find_eq_some solid ((stands_append fits).mpr stands) later fun j laterJ before standsJ => ?_
  exact first j laterJ before ((stands_append (by omega)).mp standsJ)

theorem find_take {n : Nat} (solid : needle ≠ []) (found : find text needle i = some k)
    (inside : k + needle.length ≤ n) : find (text.take n) needle i = some k := by
  obtain ⟨later, stands, first⟩ := find_some found
  have fits := stands.fits solid
  have whole := List.take_append_drop n text
  have room : k + needle.length ≤ (text.take n).length := by
    rw [List.length_take]
    omega
  rw [← whole] at stands first
  refine find_eq_some solid ((stands_append room).mp stands) later fun j laterJ before standsJ => ?_
  exact first j laterJ before ((stands_append (by omega)).mpr standsJ)

theorem find_append_of_none {front : List α} {c : α} (ends : pre = front ++ [c]) (without : c ∉ needle)
    (solid : needle ≠ []) (missing : find pre needle i = none)
    (found : find (pre ++ rest) needle i = some k) : pre.length ≤ k := by
  obtain ⟨later, stands, -⟩ := find_some found
  by_contra before
  by_cases inside : k + needle.length ≤ pre.length
  · exact find_none missing solid k later ((stands_append inside).mp stands)
  · obtain ⟨tail, same⟩ := stands
    have length : pre.length = front.length + 1 := by rw [ends, List.length_append]; rfl
    have last : (pre ++ rest)[k + (front.length - k)]? = some c := by
      rw [Nat.add_sub_cancel' (by omega), ends, List.append_assoc, List.getElem?_append_right (Nat.le_refl _),
        Nat.sub_self]
      rfl
    rw [← List.getElem?_drop, ← same, List.getElem?_append_left (by omega)] at last
    exact without (List.mem_of_getElem? last)

theorem filter_find_append {front : List α} {c : α} (ends : pre = front ++ [c]) (without : c ∉ needle)
    (solid : needle ≠ []) (p : Nat → Bool) (below : ∀ k, pre.length ≤ k → p k = false) :
    (find (pre ++ rest) needle i).filter p = (find pre needle i).filter p := by
  cases found : find pre needle i with
  | some k => rw [find_append_of_some solid found]
  | none =>
    cases beyond : find (pre ++ rest) needle i with
    | none => rfl
    | some k =>
      rw [Option.filter_some, below k (find_append_of_none ends without solid found beyond)]
      rfl

end

end EdvrPatch.Lib
