import Mathlib

/-! Lists in which every element is justified by those before it. -/
namespace EdvrPatch.Lib

variable {α β : Type}

/-- Every element of a list stands in `P` to the elements before it. -/
def Justified (P : List α → α → Prop) (l : List α) : Prop :=
  ∀ before x after, l = before ++ x :: after → P before x

namespace Justified

variable {P Q : List α → α → Prop} {x : α} {l l' : List α}

@[simp] theorem nil (P : List α → α → Prop) : Justified P [] := by
  intro before x after split
  simp at split

theorem cons_iff : Justified P (x :: l) ↔ P [] x ∧ Justified (fun before => P (x :: before)) l := by
  constructor
  · intro all
    exact ⟨all [] x l rfl, fun before y after split => all (x :: before) y after (by rw [split]; rfl)⟩
  · rintro ⟨first, rest⟩ before y after split
    cases before with
    | nil =>
      obtain ⟨rfl, -⟩ := List.cons_eq_cons.mp split
      exact first
    | cons z before =>
      obtain ⟨rfl, tail⟩ := List.cons_eq_cons.mp split
      exact rest before y after tail

theorem append_iff : Justified P (l ++ l') ↔
    Justified P l ∧ Justified (fun before => P (l ++ before)) l' := by
  induction l generalizing P with
  | nil => simp
  | cons x l ih =>
    rw [List.cons_append, cons_iff, ih, cons_iff, and_assoc]
    rfl

theorem imp (just : Justified P l) (weaker : ∀ before x, P before x → Q before x) : Justified Q l :=
  fun before x after split => weaker before x (just before x after split)

theorem append (mono : ∀ before more x, P more x → P (before ++ more) x) (first : Justified P l)
    (second : Justified P l') : Justified P (l ++ l') :=
  append_iff.mpr ⟨first, second.imp (mono l)⟩

theorem of_forall (all : ∀ x ∈ l, ∀ before, P before x) : Justified P l := by
  intro before x after split
  refine all x ?_ before
  rw [split]
  exact List.mem_append_right _ List.mem_cons_self

theorem of_map {R : List β → β → Prop} {f : α → β} (just : Justified R (l.map f))
    (back : ∀ before x, R (before.map f) (f x) → P before x) : Justified P l := by
  intro before x after split
  apply back
  refine just (before.map f) (f x) (after.map f) ?_
  rw [split, List.map_append, List.map_cons]

end Justified

end EdvrPatch.Lib
