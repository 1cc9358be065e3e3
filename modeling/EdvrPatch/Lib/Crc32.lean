import EdvrPatch.Lib.Words

/-! CRC-32, bit by bit, and the register over whole bytes: the shift register is linear, so
what eight shifts do to the low byte can be taken from a table. -/
namespace EdvrPatch.Lib

def crcPolynomial : UInt32 := 0xEDB88320

def crcBit (c : UInt32) : UInt32 :=
  if c.toNat % 2 = 1 then crcPolynomial ^^^ (c >>> 1) else c >>> 1

def crcBits : Nat → UInt32 → UInt32
  | 0, c => c
  | n + 1, c => crcBits n (crcBit c)

def crcByte (c : UInt32) (b : UInt8) : UInt32 :=
  crcBits 8 (c ^^^ b.toUInt32)

def crc32 (bytes : Bytes) : UInt32 :=
  bytes.foldl crcByte 0xFFFFFFFF ^^^ 0xFFFFFFFF

theorem crcBit_xor (a b : UInt32) : crcBit (a ^^^ b) = crcBit a ^^^ crcBit b := by
  have low : (a ^^^ b).toNat % 2 = (a.toNat % 2) ^^^ (b.toNat % 2) := by
    exact Nat.xor_mod_two_pow (n := 1)
  unfold crcBit
  rw [low, UInt32.shiftRight_xor]
  rcases Nat.mod_two_eq_zero_or_one a.toNat with zero | one
  · rcases Nat.mod_two_eq_zero_or_one b.toNat with zero' | one'
    · rw [zero, zero']
      rfl
    · rw [zero, one']
      change crcPolynomial ^^^ (a >>> 1 ^^^ b >>> 1) = a >>> 1 ^^^ (crcPolynomial ^^^ b >>> 1)
      rw [← UInt32.xor_assoc, UInt32.xor_comm crcPolynomial, UInt32.xor_assoc]
  · rcases Nat.mod_two_eq_zero_or_one b.toNat with zero' | one'
    · rw [one, zero']
      change crcPolynomial ^^^ (a >>> 1 ^^^ b >>> 1) = crcPolynomial ^^^ a >>> 1 ^^^ b >>> 1
      rw [UInt32.xor_assoc]
    · rw [one, one']
      change a >>> 1 ^^^ b >>> 1 = crcPolynomial ^^^ a >>> 1 ^^^ (crcPolynomial ^^^ b >>> 1)
      rw [UInt32.xor_comm crcPolynomial (a >>> 1), UInt32.xor_assoc, ← UInt32.xor_assoc crcPolynomial,
        UInt32.xor_self, UInt32.zero_xor]

theorem crcBits_xor (n : Nat) (a b : UInt32) : crcBits n (a ^^^ b) = crcBits n a ^^^ crcBits n b := by
  induction n generalizing a b with
  | zero => rfl
  | succ n ih =>
    unfold crcBits
    rw [crcBit_xor, ih]

theorem crcBits_of_dvd {n : Nat} {c : UInt32} (zeros : 2 ^ n ∣ c.toNat) :
    (crcBits n c).toNat = c.toNat / 2 ^ n := by
  induction n generalizing c with
  | zero =>
    unfold crcBits
    rw [Nat.pow_zero, Nat.div_one]
  | succ n ih =>
    obtain ⟨k, is⟩ := zeros
    have half : c.toNat = 2 * (2 ^ n * k) := by
      rw [is, Nat.pow_succ, Nat.mul_comm (2 ^ n) 2, Nat.mul_assoc]
    have shifted : (c >>> 1).toNat = 2 ^ n * k := by
      change c.toNat >>> 1 = _
      rw [Nat.shiftRight_eq_div_pow, Nat.pow_one, half, Nat.mul_div_cancel_left _ (by decide)]
    have bit : crcBit c = c >>> 1 := if_neg (by omega)
    unfold crcBits
    rw [bit, ih ⟨k, shifted⟩, shifted, half, Nat.pow_succ, Nat.mul_comm (2 ^ n) 2,
      Nat.mul_div_mul_left _ _ (by decide)]

theorem crcBits_eight (c : UInt32) :
    crcBits 8 c = crcBits 8 (.ofNat (c.toNat % 256)) ^^^ (c >>> 8) := by
  have low : (UInt32.ofNat (c.toNat % 256)).toNat = c.toNat % 256 := by
    rw [UInt32.toNat_ofNat']
    omega
  generalize UInt32.ofNat (c.toNat % 256) = byte at low ⊢
  have parts : c = byte ^^^ (c ^^^ byte) := by
    rw [UInt32.xor_comm c, ← UInt32.xor_assoc, UInt32.xor_self, UInt32.zero_xor]
  have zeros : 2 ^ 8 ∣ (c ^^^ byte).toNat := by
    refine Nat.dvd_of_mod_eq_zero ?_
    rw [UInt32.toNat_xor, Nat.xor_mod_two_pow, low]
    rw [Nat.mod_mod, Nat.xor_self]
  have high : crcBits 8 (c ^^^ byte) = c >>> 8 := by
    rw [← UInt32.toNat_inj, crcBits_of_dvd zeros, ← Nat.shiftRight_eq_div_pow, UInt32.toNat_xor,
      Nat.shiftRight_xor_distrib, low, UInt32.toNat_shiftRight]
    have none : (c.toNat % 256) >>> 8 = 0 := by
      omega
    rw [none, Nat.xor_zero]
    rfl
  calc crcBits 8 c = crcBits 8 (byte ^^^ (c ^^^ byte)) := congrArg _ parts
    _ = crcBits 8 byte ^^^ (c >>> 8) := by rw [crcBits_xor, high]

theorem crcByte_eq (c : UInt32) (b : UInt8) :
    crcByte c b = crcBits 8 (.ofNat ((c ^^^ b.toUInt32).toNat % 256)) ^^^ (c >>> 8) := by
  have small : b.toUInt32 >>> 8 = 0 := by
    have few := b.toNat_lt
    rw [← UInt32.toNat_inj, UInt32.toNat_shiftRight, UInt8.toNat_toUInt32]
    change b.toNat >>> 8 = 0
    omega
  unfold crcByte
  rw [crcBits_eight, UInt32.shiftRight_xor, small, UInt32.xor_zero]

end EdvrPatch.Lib
