import Mathlib

/-! Maps `x ↦ offset + x * slope` over a ring, and the one that a list of them
amounts to, applied in order. -/
namespace EdvrPatch.Lib

structure Affine (R : Type*) where
  offset : R
  slope : R
  deriving DecidableEq, Repr

namespace Affine

variable {R : Type*} [CommRing R]

def apply (m : Affine R) (x : R) : R := m.offset + x * m.slope

def id : Affine R := ⟨0, 1⟩

def andThen (m n : Affine R) : Affine R := ⟨n.apply m.offset, m.slope * n.slope⟩

@[simp] theorem apply_id (x : R) : (id : Affine R).apply x = x := by
  simp [apply, id]

@[simp] theorem apply_andThen (m n : Affine R) (x : R) :
    (m.andThen n).apply x = n.apply (m.apply x) := by
  simp only [apply, andThen]
  ring

end Affine

end EdvrPatch.Lib
