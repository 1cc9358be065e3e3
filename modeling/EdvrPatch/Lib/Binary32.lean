import Mathlib

/-! Single-precision numbers as bit patterns, as far as they are compared. The
sign and the remaining 31 bits order the patterns the way the numbers they stand
for are ordered, with the two zeros equal and the not-a-numbers beside. -/
namespace EdvrPatch.Lib

abbrev Binary32 := UInt32

namespace Binary32

def magnitude (x : Binary32) : Nat := x.toNat % 2 ^ 31

def ordinal (x : Binary32) : Int :=
  if 2 ^ 31 ≤ x.toNat then -(magnitude x : Int) else magnitude x

def isNaN (x : Binary32) : Bool := 0x7f800000 < magnitude x

def isfinite (x : Binary32) : Bool := magnitude x < 0x7f800000

def less (a b : Binary32) : Bool := !isNaN a && !isNaN b && ordinal a < ordinal b

def equal (a b : Binary32) : Bool := !isNaN a && !isNaN b && ordinal a == ordinal b

theorem natAbs_ordinal (x : Binary32) : (ordinal x).natAbs = magnitude x := by
  unfold ordinal
  split
  · rw [Int.natAbs_neg, Int.natAbs_natCast]
  · rw [Int.natAbs_natCast]

variable {a b : Binary32}

theorem ordinal_of_equal (same : equal a b) : ordinal a = ordinal b := by
  unfold equal at same
  simp only [Bool.and_eq_true, beq_iff_eq] at same
  exact same.2

theorem magnitude_of_equal (same : equal a b) : magnitude a = magnitude b := by
  rw [← natAbs_ordinal a, ← natAbs_ordinal b, ordinal_of_equal same]

theorem isfinite_of_equal (same : equal a b) : isfinite a = isfinite b := by
  unfold isfinite
  rw [magnitude_of_equal same]

theorem isNaN_of_equal (same : equal a b) : isNaN a = isNaN b := by
  unfold isNaN
  rw [magnitude_of_equal same]

theorem less_of_equal_left (same : equal a b) (c : Binary32) : less a c = less b c := by
  unfold less
  rw [isNaN_of_equal same, ordinal_of_equal same]

theorem less_of_equal_right (same : equal a b) (c : Binary32) : less c a = less c b := by
  unfold less
  rw [isNaN_of_equal same, ordinal_of_equal same]

end Binary32

end EdvrPatch.Lib
