import EdvrPatch.Lib.Words

/-! An address space of bytes, whose addresses wrap around: what a write leaves where it
wrote, and that it leaves the rest alone. -/
namespace EdvrPatch.Lib

abbrev Space := UInt64 → UInt8

namespace Space

def read (m : Space) (a : UInt64) (n : Nat) : Bytes :=
  (List.range n).map fun k => m (a + .ofNat k)

def write (m : Space) (a : UInt64) (bytes : Bytes) : Space :=
  fun x => (bytes[(x - a).toNat]?).getD (m x)

def Apart (a : UInt64) (n : Nat) (b : UInt64) (k : Nat) : Prop :=
  ∀ i < n, k ≤ (a + .ofNat i - b).toNat

variable {m m' : Space} {a b : UInt64} {n k d : Nat} {bytes : Bytes}

@[simp] theorem length_read (m : Space) (a : UInt64) (n : Nat) : (m.read a n).length = n := by
  simp [read]

theorem read_congr (same : ∀ i < n, m (a + .ofNat i) = m' (a + .ofNat i)) :
    m.read a n = m'.read a n := by
  refine List.map_congr_left fun i inside => same i ?_
  simpa using inside

theorem read_add (m : Space) (a : UInt64) (n k : Nat) :
    m.read a (n + k) = m.read a n ++ m.read (a + .ofNat n) k := by
  unfold read
  rw [List.range_add, List.map_append, List.map_map]
  congr 1
  refine List.map_congr_left fun i _ => ?_
  rw [Function.comp_apply, UInt64.ofNat_add, add_assoc]

theorem read_part (m : Space) (a : UInt64) (more : d + k ≤ n) :
    ((m.read a n).drop d).take k = m.read (a + .ofNat d) k := by
  obtain ⟨rest, rfl⟩ := Nat.exists_eq_add_of_le more
  rw [Nat.add_assoc, read_add, List.drop_left' (length_read ..), read_add,
    List.take_left' (length_read ..)]

theorem read_take (m : Space) (a : UInt64) (more : k ≤ n) : (m.read a n).take k = m.read a k := by
  obtain ⟨rest, rfl⟩ := Nat.exists_eq_add_of_le more
  rw [read_add, List.take_left' (length_read ..)]

theorem read_drop (m : Space) (a : UInt64) (more : d ≤ n) :
    (m.read a n).drop d = m.read (a + .ofNat d) (n - d) := by
  obtain ⟨rest, rfl⟩ := Nat.exists_eq_add_of_le more
  rw [read_add, List.drop_left' (length_read ..), Nat.add_sub_cancel_left]

theorem read_write_apart (apart : Apart a n b bytes.length) :
    (m.write b bytes).read a n = m.read a n := by
  refine read_congr fun i inside => ?_
  unfold write
  rw [List.getElem?_eq_none (apart i inside)]
  rfl

theorem read_write (m : Space) (a : UInt64) (small : bytes.length ≤ 2 ^ 64) :
    (m.write a bytes).read a bytes.length = bytes := by
  refine List.ext_getElem (length_read ..) fun i inside inside' => ?_
  have index : ((a + .ofNat i) - a).toNat = i := by
    rw [add_sub_cancel_left, UInt64.toNat_ofNat']
    omega
  simp only [read, write, List.getElem_map, List.getElem_range, index, List.getElem?_eq_getElem inside',
    Option.getD_some]

theorem Apart.mono {n' k' : Nat} (apart : Apart a n b k) (less : n' ≤ n) (fewer : k' ≤ k) :
    Apart a n' b k' :=
  fun i inside => fewer.trans (apart i (by omega))

theorem Apart.inside (apart : Apart a n b k) {k' : Nat} (within : d + k' ≤ k) (small : k ≤ 2 ^ 64) :
    Apart a n (b + .ofNat d) k' := by
  intro i inside
  have outside := apart i inside
  rw [sub_add_eq_sub_sub, UInt64.toNat_sub, UInt64.toNat_ofNat']
  have size := (a + .ofNat i - b).toNat_lt
  omega

theorem Apart.symm (apart : Apart a n b k) (small : k ≤ 2 ^ 64) : Apart b k a n := by
  intro j inside
  rw [← Nat.not_lt]
  intro within
  have outside := apart _ within
  rw [UInt64.ofNat_toNat, add_sub_cancel, add_sub_cancel_left, UInt64.toNat_ofNat'] at outside
  omega

theorem apart_before (small : d + k ≤ 2 ^ 64) : Apart a d (a + .ofNat d) k := by
  intro i inside
  rw [add_sub_add_left_eq_sub, UInt64.toNat_sub, UInt64.toNat_ofNat', UInt64.toNat_ofNat']
  omega

theorem apart_after (small : d + n ≤ 2 ^ 64) (past : k ≤ d) : Apart (a + .ofNat d) n a k := by
  intro i inside
  rw [add_assoc, add_sub_cancel_left, ← UInt64.ofNat_add, UInt64.toNat_ofNat']
  omega

theorem read_write_within (m : Space) (a : UInt64) (within : d + bytes.length ≤ n) (small : n ≤ 2 ^ 64) :
    (m.write (a + .ofNat d) bytes).read a n =
      (m.read a n).take d ++ bytes ++ (m.read a n).drop (d + bytes.length) := by
  obtain ⟨rest, rfl⟩ := Nat.exists_eq_add_of_le within
  have front : (m.write (a + .ofNat d) bytes).read a d = (m.read a (d + bytes.length + rest)).take d := by
    rw [read_write_apart (apart_before (by omega)), read_take _ _ (by omega)]
  have back : (m.write (a + .ofNat d) bytes).read (a + .ofNat (d + bytes.length)) rest =
      (m.read a (d + bytes.length + rest)).drop (d + bytes.length) := by
    rw [read_drop _ _ (by omega), Nat.add_sub_cancel_left, read_write_apart]
    rw [UInt64.ofNat_add, ← add_assoc]
    exact apart_after (by omega) (Nat.le_refl _)
  rw [← front, ← back, read_add, read_add, read_write _ _ (by omega)]

end Space

end EdvrPatch.Lib
