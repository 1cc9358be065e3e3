import Mathlib

/-! Things that forward to one another, each to one thing at most. To follow the forwards
is to go from one to the next; one forward that is set anew closes a loop exactly where
its owner is reached from what it is set to. -/
namespace EdvrPatch.Lib

variable {α : Type}

def follow (forward : α → Option α) : Nat → α → Option α
  | 0, a => some a
  | n + 1, a => (forward a).bind (follow forward n)

def Ends (forward : α → Option α) (a : α) : Prop :=
  ∃ n, follow forward n a = none

def Reaches (forward : α → Option α) (a b : α) : Prop :=
  ∃ n, follow forward n a = some b

variable {forward : α → Option α} {a b t e : α}

theorem follow_succ (n : Nat) : follow forward (n + 1) a = (forward a).bind (follow forward n) := rfl

theorem follow_add (m n : Nat) : follow forward (m + n) a = (follow forward m a).bind (follow forward n) := by
  induction m generalizing a with
  | zero => rw [Nat.zero_add]; rfl
  | succ m ih =>
    rw [Nat.succ_add, follow_succ, follow_succ, Option.bind_assoc]
    congr 1
    funext b
    exact ih

theorem ends_of_none (none : forward a = none) : Ends forward a :=
  ⟨1, by rw [follow_succ, none]; rfl⟩

theorem Ends.of_forward (next : forward a = some b) (ends : Ends forward b) : Ends forward a := by
  obtain ⟨n, isNone⟩ := ends
  exact ⟨n + 1, by rw [follow_succ, next]; exact isNone⟩

theorem not_ends_of_cycle {n : Nat} (positive : 0 < n) (cycle : follow forward n a = some a) : ¬Ends forward a := by
  rintro ⟨m, isNone⟩
  have again : ∀ k, follow forward (k * n) a = some a := by
    intro k
    induction k with
    | zero => rw [Nat.zero_mul]; rfl
    | succ k ih =>
      rw [Nat.succ_mul, follow_add, ih]
      exact cycle
  have past : follow forward (m * n) a = none := by
    obtain ⟨rest, isSum⟩ := Nat.exists_eq_add_of_le (Nat.le_mul_of_pos_right m positive)
    rw [isSum, follow_add, isNone]
    rfl
  exact nomatch (again m).symm.trans past

section

variable [DecidableEq α]

def redirect (forward : α → Option α) (t e : α) : α → Option α :=
  Function.update forward t (some e)

@[simp] theorem redirect_self : redirect forward t e t = some e :=
  Function.update_self ..

theorem redirect_of_ne (other : a ≠ t) : redirect forward t e a = forward a :=
  Function.update_of_ne other ..

theorem follow_redirect {n : Nat} (apart : ∀ m < n, follow forward m a ≠ some t) :
    follow (redirect forward t e) n a = follow forward n a := by
  induction n generalizing a with
  | zero => rfl
  | succ n ih =>
    have other : a ≠ t := fun same => apart 0 (Nat.zero_lt_succ n) (congrArg some same)
    rw [follow_succ, follow_succ, redirect_of_ne other]
    cases next : forward a with
    | none => rfl
    | some b =>
      refine ih fun m less => ?_
      have := apart (m + 1) (Nat.succ_lt_succ less)
      rwa [follow_succ, next] at this

theorem Reaches.of_redirect (reaches : Reaches (redirect forward t e) a t) : Reaches forward a t := by
  by_contra apart
  obtain ⟨n, isThere⟩ := reaches
  rw [follow_redirect fun m _ met => apart ⟨m, met⟩] at isThere
  exact apart ⟨n, isThere⟩

theorem ends_redirect (ends : ∀ a, Ends forward a) (apart : ¬Reaches forward e t) (a : α) :
    Ends (redirect forward t e) a := by
  have target : Ends (redirect forward t e) e := by
    obtain ⟨n, isNone⟩ := ends e
    exact ⟨n, (follow_redirect fun m _ met => apart ⟨m, met⟩).trans isNone⟩
  obtain ⟨n, isNone⟩ := ends a
  induction n generalizing a with
  | zero => cases isNone
  | succ n ih =>
    by_cases same : a = t
    · exact Ends.of_forward (same ▸ redirect_self) target
    · cases next : forward a with
      | none => exact ends_of_none ((redirect_of_ne same).trans next)
      | some b =>
        rw [follow_succ, next] at isNone
        exact Ends.of_forward ((redirect_of_ne same).trans next) (ih b isNone)

theorem not_ends_redirect (reaches : Reaches forward e t) : ¬Ends (redirect forward t e) e := by
  classical
  have first : follow (redirect forward t e) (Nat.find reaches) e = some t := by
    rw [follow_redirect fun m less => Nat.find_min reaches less]
    exact Nat.find_spec reaches
  refine not_ends_of_cycle (Nat.zero_lt_succ (Nat.find reaches)) ?_
  rw [Nat.succ_eq_add_one, follow_add, first]
  change (redirect forward t e t).bind _ = _
  rw [redirect_self]
  rfl

end

end EdvrPatch.Lib
