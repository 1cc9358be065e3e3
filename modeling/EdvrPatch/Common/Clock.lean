import Mathlib

/-! The clock of `timing.h`. A run that is timed is stamped when it begins, and zero
stands for a run that is not in progress. -/
namespace EdvrPatch

def stampMs (now : Nat) : Nat := if now = 0 then 1 else now

def elapsedMs (now since ms : Nat) : Bool :=
  since ≠ 0 && decide (ms ≤ (2 ^ 64 + now - since) % 2 ^ 64)

def sinceMs (now since : Nat) : Nat :=
  (2 ^ 64 + now - since) % 2 ^ 64

theorem sinceMs_of_le {now since : Nat} (later : since ≤ now) (fits : now < 2 ^ 64) :
    sinceMs now since = now - since := by
  rw [sinceMs, Nat.add_sub_assoc later, Nat.add_mod_left]
  exact Nat.mod_eq_of_lt (by omega)

theorem stampMs_pos (now : Nat) : stampMs now ≠ 0 := by
  unfold stampMs
  split <;> omega

theorem stampMs_le {now : Nat} : stampMs now ≤ now + 1 := by
  unfold stampMs
  split <;> omega

theorem elapsedMs_of_lt {start now ms : Nat} (late : start + ms < now) (fits : now < 2 ^ 64) :
    elapsedMs now (stampMs start) ms = true := by
  have positive := stampMs_pos start
  have near := @stampMs_le start
  have wrapped : (2 ^ 64 + now - stampMs start) % 2 ^ 64 = now - stampMs start := by
    rw [Nat.add_sub_assoc (by omega), Nat.add_mod_left]
    exact Nat.mod_eq_of_lt (by omega)
  simp only [elapsedMs, wrapped, Bool.and_eq_true, decide_eq_true_eq]
  exact ⟨positive, by omega⟩

end EdvrPatch
