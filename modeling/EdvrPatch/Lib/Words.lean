import Mathlib

/-! Little-endian words in a list of bytes: reading one, writing one over the bytes
that stand at its place, and whole lists of them. -/
namespace EdvrPatch.Lib

abbrev Bytes := List UInt8

def wordBytes (v : UInt32) : Bytes :=
  [.ofNat v.toNat, .ofNat (v.toNat / 2 ^ 8), .ofNat (v.toNat / 2 ^ 16), .ofNat (v.toNat / 2 ^ 24)]

def bytesWord (a b c d : UInt8) : UInt32 :=
  .ofNat (a.toNat + 2 ^ 8 * b.toNat + 2 ^ 16 * c.toNat + 2 ^ 24 * d.toNat)

def wordAt (bytes : Bytes) (offset : Nat) : Option UInt32 :=
  match bytes.drop offset with
  | a :: b :: c :: d :: _ => some (bytesWord a b c d)
  | _ => none

def write (bytes : Bytes) (offset : Nat) (v : UInt32) : Bytes :=
  bytes.take offset ++ wordBytes v ++ bytes.drop (offset + 4)

def bytesOf (words : List UInt32) : Bytes :=
  words.flatMap wordBytes

def wordsOf : Bytes → List UInt32
  | a :: b :: c :: d :: rest => bytesWord a b c d :: wordsOf rest
  | _ => []

@[simp] theorem length_wordBytes (v : UInt32) : (wordBytes v).length = 4 := rfl

theorem bytesWord_wordBytes (v : UInt32) :
    bytesWord (.ofNat v.toNat) (.ofNat (v.toNat / 2 ^ 8)) (.ofNat (v.toNat / 2 ^ 16))
      (.ofNat (v.toNat / 2 ^ 24)) = v := by
  have small := v.toNat_lt
  unfold bytesWord
  rw [← UInt32.toNat_inj]
  simp only [UInt32.toNat_ofNat', UInt8.toNat_ofNat']
  omega

theorem wordAt_of_drop {bytes rest : Bytes} {offset : Nat} {v : UInt32}
    (here : bytes.drop offset = wordBytes v ++ rest) : wordAt bytes offset = some v := by
  unfold wordAt
  rw [here]
  exact congrArg some (bytesWord_wordBytes v)

theorem write_append {front old rest : Bytes} {v : UInt32} {offset : Nat}
    (size : front.length = offset) (four : old.length = 4) :
    write (front ++ old ++ rest) offset v = front ++ wordBytes v ++ rest := by
  have before : (front ++ old ++ rest).take offset = front := by
    rw [List.append_assoc, List.take_left' size]
  have after : (front ++ old ++ rest).drop (offset + 4) = rest := by
    rw [List.drop_left' (by rw [List.length_append, size, four])]
  rw [write, before, after]

@[simp] theorem bytesOf_cons (v : UInt32) (words : List UInt32) :
    bytesOf (v :: words) = wordBytes v ++ bytesOf words := rfl

@[simp] theorem bytesOf_append (first rest : List UInt32) :
    bytesOf (first ++ rest) = bytesOf first ++ bytesOf rest :=
  List.flatMap_append

@[simp] theorem length_bytesOf (words : List UInt32) : (bytesOf words).length = 4 * words.length := by
  induction words with
  | nil => rfl
  | cons v words ih =>
    rw [bytesOf_cons, List.length_append, ih, length_wordBytes, List.length_cons]
    omega

@[simp] theorem wordsOf_bytesOf (words : List UInt32) : wordsOf (bytesOf words) = words := by
  induction words with
  | nil => rfl
  | cons v words ih =>
    have first := bytesWord_wordBytes v
    change bytesWord _ _ _ _ :: wordsOf (bytesOf words) = _
    rw [first, ih]

def quadBytes (v : UInt64) : Bytes :=
  wordBytes v.toUInt32 ++ wordBytes (v >>> 32).toUInt32

def quadOf (bytes : Bytes) : UInt64 :=
  .ofNat (((wordAt bytes 0).getD 0).toNat + 2 ^ 32 * ((wordAt bytes 4).getD 0).toNat)

@[simp] theorem quadOf_quadBytes (v : UInt64) : quadOf (quadBytes v) = v := by
  have low : wordAt (quadBytes v) 0 = some v.toUInt32 := wordAt_of_drop rfl
  have high : wordAt (quadBytes v) 4 = some (v >>> 32).toUInt32 := @wordAt_of_drop _ [] _ _ rfl
  have small := v.toNat_lt
  unfold quadOf
  rw [low, high, Option.getD_some, Option.getD_some, ← UInt64.toNat_inj, UInt64.toNat_ofNat',
    UInt64.toNat_toUInt32, UInt64.toNat_toUInt32, UInt64.toNat_shiftRight, Nat.shiftRight_eq_div_pow]
  change (v.toNat % 2 ^ 32 + 2 ^ 32 * (v.toNat / 2 ^ 32 % 2 ^ 32)) % 2 ^ 64 = v.toNat
  omega

end EdvrPatch.Lib
