import Mathlib

/-! Strings of the program. A `std::string` is a list of bytes and a
`std::wstring` a list of code units; both are lists of characters here, and the
only case mapping the program uses is the ASCII one. -/
namespace EdvrPatch

abbrev Text := List Char

/-- A condition on the characters of a string is decided along the string, not over all
characters. -/
instance (priority := high) decidableForallMem (p : Char → Prop) [DecidablePred p] (s : Text) :
    Decidable (∀ c ∈ s, p c) :=
  List.decidableBAll p s

instance (priority := high) decidableForallMemOption (p : Char → Prop) [DecidablePred p] (o : Option Char) :
    Decidable (∀ c ∈ o, p c) :=
  Option.decidableForallMem o

instance (priority := high) decidableExistsMemOption (p : Char → Prop) [DecidablePred p] (o : Option Char) :
    Decidable (∃ c ∈ o, p c) :=
  Option.decidableExistsMem o

def lower (s : Text) : Text :=
  s.map Char.toLower

@[simp] theorem lower_cons (c : Char) (s : Text) : lower (c :: s) = c.toLower :: lower s := rfl

@[simp] theorem lower_append (s t : Text) : lower (s ++ t) = lower s ++ lower t := by
  simp [lower]

@[simp] theorem length_lower (s : Text) : (lower s).length = s.length := by
  simp [lower]

theorem eq_of_toLower_eq {c d : Char} (other : ¬(97 ≤ d.val.toNat ∧ d.val.toNat ≤ 122))
    (same : c.toLower = d) : c = d := by
  unfold Char.toLower at same
  split at same
  · rename_i upper
    have low : 65 ≤ c.val.toNat := UInt32.le_iff_toNat_le.mp upper.1
    have high : c.val.toNat ≤ 90 := UInt32.le_iff_toNat_le.mp upper.2
    have raised : (c.val + 32).toNat = d.val.toNat := congrArg (fun e : Char => e.val.toNat) same
    change (c.val.toNat + 32) % 4294967296 = d.val.toNat at raised
    omega
  · exact same

theorem mem_of_mem_lower {s : Text} {d : Char} (other : ¬(97 ≤ d.val.toNat ∧ d.val.toNat ≤ 122))
    (member : d ∈ lower s) : d ∈ s := by
  obtain ⟨c, inside, same⟩ := List.mem_map.mp member
  rw [← eq_of_toLower_eq other same]
  exact inside

@[simp] theorem lower_lower (s : Text) : lower (lower s) = lower s := by
  simp [lower, Function.comp_def]

end EdvrPatch
