import Mathlib

/-! A ring of the latest values: a table of `n` slots, the slot that is written next, and
how many are in use. When all are, the oldest value makes room. -/
namespace EdvrPatch.Lib

structure Ring (α : Type) (n : Nat) where
  slots : Nat → α
  next : Nat := 0
  count : Nat := 0

namespace Ring

variable {α : Type} {n : Nat}

def push (r : Ring α n) (x : α) : Ring α n where
  slots := Function.update r.slots r.next x
  next := (r.next + 1) % n
  count := if r.count = n then r.count else r.count + 1

def clear (r : Ring α n) : Ring α n :=
  { r with count := 0 }

def restart (r : Ring α n) : Ring α n :=
  { r with next := 0, count := 0 }

def back (r : Ring α n) (i : Nat) : α :=
  r.slots ((r.next + n - 1 - i) % n)

def latest (r : Ring α n) : List α :=
  (List.range r.count).map r.back

structure Valid (r : Ring α n) : Prop where
  next : r.next < n
  count : r.count ≤ n

variable {r : Ring α n}

theorem Valid.push (valid : r.Valid) (x : α) : (r.push x).Valid := by
  have positive := Nat.zero_lt_of_lt valid.next
  refine ⟨Nat.mod_lt _ positive, ?_⟩
  unfold Ring.push
  dsimp only
  have := valid.count
  split <;> omega

theorem Valid.clear (valid : r.Valid) : r.clear.Valid :=
  ⟨valid.next, Nat.zero_le n⟩

theorem Valid.restart (positive : 0 < n) : r.restart.Valid :=
  ⟨positive, Nat.zero_le n⟩

theorem length_latest (r : Ring α n) : r.latest.length = r.count := by
  simp [latest]

theorem slot_eq {next i : Nat} (small : next < n) (near : i < n) :
    (next + n - 1 - i) % n = if i < next then next - 1 - i else next + n - 1 - i := by
  split
  · rw [show next + n - 1 - i = next - 1 - i + n by omega, Nat.add_mod_right]
    exact Nat.mod_eq_of_lt (by omega)
  · exact Nat.mod_eq_of_lt (by omega)

theorem next_eq {next : Nat} (small : next < n) : (next + 1) % n = if next + 1 = n then 0 else next + 1 := by
  split
  · rename_i last
    rw [last, Nat.mod_self]
  · exact Nat.mod_eq_of_lt (by omega)

theorem back_push_zero (valid : r.Valid) (x : α) : (r.push x).back 0 = x := by
  have small := valid.next
  have same : ((r.next + 1) % n + n - 1 - 0) % n = r.next := by
    rw [slot_eq (Nat.mod_lt _ (Nat.zero_lt_of_lt small)) (Nat.zero_lt_of_lt small), next_eq small]
    split <;> split <;> omega
  unfold back push
  dsimp only
  rw [same, Function.update_self]

theorem back_push_succ (valid : r.Valid) (x : α) {i : Nat} (near : i + 1 < n) :
    (r.push x).back (i + 1) = r.back i := by
  have small := valid.next
  have same : ((r.next + 1) % n + n - 1 - (i + 1)) % n = (r.next + n - 1 - i) % n := by
    rw [slot_eq (Nat.mod_lt _ (Nat.zero_lt_of_lt small)) near, slot_eq small (by omega), next_eq small]
    split <;> split <;> split <;> omega
  have other : (r.next + n - 1 - i) % n ≠ r.next := by
    rw [slot_eq small (by omega)]
    split <;> omega
  unfold back push
  dsimp only
  rw [same, Function.update_of_ne other]

theorem latest_full (valid : r.Valid) (full : r.count = n) :
    r.latest = (List.range (n - 1)).map r.back ++ [r.slots r.next] := by
  have small := valid.next
  have last : r.back (n - 1) = r.slots r.next := by
    unfold back
    rw [slot_eq small (by omega)]
    congr 1
    split <;> omega
  have range : List.range n = List.range (n - 1) ++ [n - 1] := by
    rw [← List.range_succ, show (n - 1).succ = n by omega]
  unfold latest
  rw [full, range, List.map_append, List.map_singleton, last]

theorem latest_push (valid : r.Valid) (x : α) :
    (r.push x).latest = x :: if r.count = n then (List.range (n - 1)).map r.back else r.latest := by
  have small := valid.next
  have cons : ∀ m, m < n → (List.range (m + 1)).map (r.push x).back = x :: (List.range m).map r.back := by
    intro m fits
    rw [List.range_succ_eq_map, List.map_cons, back_push_zero valid, List.map_map]
    congr 1
    refine List.map_congr_left fun i mem => ?_
    have near : i + 1 < n := by
      have := List.mem_range.mp mem
      omega
    exact back_push_succ valid x near
  have count : (r.push x).count = if r.count = n then r.count else r.count + 1 := rfl
  have bound := valid.count
  unfold latest
  rw [count]
  split
  · rename_i full
    have all := cons (n - 1) (by omega)
    rw [full]
    rwa [show n - 1 + 1 = n by omega] at all
  · exact cons r.count (by omega)

theorem latest_push_take (valid : r.Valid) (x : α) :
    (r.push x).latest = x :: r.latest.take (n - 1) := by
  rw [latest_push valid]
  have bound := valid.count
  split
  · rename_i full
    rw [latest_full valid full, List.take_left' (by simp)]
  · rename_i room
    rw [List.take_of_length_le (by rw [length_latest]; omega)]

end Ring

end EdvrPatch.Lib
