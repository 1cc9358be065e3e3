import EdvrPatch.X64.Encoding
import EdvrPatch.Lib.Space

/-! Instructions in memory: an instruction is known by its first bytes, up to a displacement that is
relative to the next one, and what it does depends on its place only through the address that this
stands for. -/
namespace EdvrPatch.X64

open Lib

/-- The bytes are enough to know the instruction that begins with them. -/
def Decides (front : Bytes) (shape : Shape) : Prop :=
  ∀ after : Bytes, shape.length ≤ front.length + after.length →
    instruction (front ++ after) = some shape

variable {code : Bytes}

theorem isLegacyPrefix_of_takeWhile {b : UInt8} (among : b ∈ code.takeWhile isLegacyPrefix) :
    isLegacyPrefix b = true :=
  List.all_eq_true.mp List.all_takeWhile b among

variable {rest : Bytes}

theorem splitPrefixes_append {p : Prefixes} {op : UInt8}
    (split : splitPrefixes code = (p, op :: rest)) :
    ∃ front : Bytes, front.length = p.length ∧ code = front ++ op :: rest ∧
      ∀ rest', splitPrefixes (front ++ op :: rest') = (p, op :: rest') := by
  have whole := List.takeWhile_append_dropWhile (p := isLegacyPrefix) (l := code)
  have ends := List.head?_dropWhile_not isLegacyPrefix code
  have legacy : ∀ b ∈ code.takeWhile isLegacyPrefix, isLegacyPrefix b = true :=
    fun _ => isLegacyPrefix_of_takeWhile
  unfold splitPrefixes at split
  dsimp only at split
  generalize code.takeWhile isLegacyPrefix = front at split whole legacy
  generalize code.dropWhile isLegacyPrefix = back at split whole ends
  cases back with
  | nil => cases split
  | cons b back =>
    have plain : ∀ rest', splitPrefixes (front ++ b :: rest') =
        if isRex b then ({ legacy := front, rex := some b }, rest')
        else ({ legacy := front }, b :: rest') := by
      intro rest'
      unfold splitPrefixes
      rw [List.takeWhile_append_of_pos legacy, List.dropWhile_append_of_pos legacy,
        List.takeWhile_cons_of_neg (by simpa using ends),
        List.dropWhile_cons_of_neg (by simpa using ends), List.append_nil]
    dsimp only at split
    split at split
    · rename_i rex
      cases split
      refine ⟨front ++ [b], by simp [Prefixes.length], by rw [← whole]; simp, fun rest' => ?_⟩
      rw [List.append_assoc, List.singleton_append, plain, if_pos rex]
    · rename_i rex
      cases split
      refine ⟨front, by simp [Prefixes.length], whole.symm, fun rest' => ?_⟩
      rw [plain, if_neg rex]

theorem Operand.tail_front {m : UInt8} {size : Nat} {relative : Bool}
    (is : tail m rest = some (size, relative)) :
    ∃ sib more : Bytes, rest = sib ++ more ∧ (∀ more', tail m (sib ++ more') = some (size, relative)) ∧
      if relative then sib = [] ∧ size = 4 else sib.length ≤ size := by
  unfold tail at is ⊢
  dsimp only at is ⊢
  split at is
  · rename_i register
    cases is
    exact ⟨[], rest, rfl, fun _ => by rw [if_pos register], Nat.le_refl 0⟩
  rename_i notRegister
  split at is
  · rename_i sibNext
    cases rest with
    | nil => cases is
    | cons sib rest =>
      cases is
      refine ⟨[sib], rest, rfl, fun _ => ?_, ?_⟩
      · rw [if_neg notRegister, if_pos sibNext]
        rfl
      · change 1 ≤ _
        omega
  rename_i noSib
  split at is
  · rename_i isRelative
    cases is
    exact ⟨[], rest, rfl, fun _ => by rw [if_neg notRegister, if_neg noSib, if_pos isRelative], rfl, rfl⟩
  · rename_i absolute
    cases is
    refine ⟨[], rest, rfl, fun _ => ?_, Nat.zero_le _⟩
    rw [if_neg notRegister, if_neg noSib, if_neg absolute]

theorem formOf_front {op : UInt8} {form : Form} {opcode : Nat}
    (is : formOf (op :: rest) = some (form, opcode)) :
    ∃ more after : Bytes, rest = more ++ after ∧ more.length + 1 = opcode ∧
      ∀ after', formOf (op :: (more ++ after')) = some (form, opcode) := by
  by_cases two : op = 0x0F
  · subst two
    cases rest with
    | nil => cases is
    | cons next rest =>
      have same : ∀ rest', formOf (0x0F :: next :: rest') = (twoByte next).map fun form => (form, 2) :=
        fun _ => rfl
      rw [same] at is
      refine ⟨[next], rest, rfl, ?_, fun after' => by rw [← is]; exact same after'⟩
      obtain ⟨_, -, eq⟩ := Option.map_eq_some_iff.mp is
      cases eq
      rfl
  · have same : ∀ rest', formOf (op :: rest') = (oneByte op).map fun form => (form, 1) := by
      intro rest'
      cases rest' with
      | nil => rfl
      | cons next rest' =>
        unfold formOf
        dsimp only
        rw [if_neg two]
    rw [same] at is
    refine ⟨[], rest, rfl, ?_, fun after' => by rw [← is]; exact same _⟩
    obtain ⟨_, -, eq⟩ := Option.map_eq_some_iff.mp is
    cases eq
    rfl

variable {shape : Shape}

theorem shapeAt_front {p : Prefixes} {form : Form} {offset : Nat}
    (is : shapeAt p form offset rest = some shape) :
    ∃ more after : Bytes, rest = more ++ after ∧
      (∀ after', shapeAt p form offset (more ++ after') = some shape) ∧
      offset + more.length ≤ shape.ripDisp.getD shape.length ∧
      ∀ d ∈ shape.ripDisp, d + 4 ≤ shape.length := by
  unfold shapeAt at is ⊢
  cases operands : form.modrm with
  | none =>
    rw [operands] at is
    cases is
    exact ⟨[], rest, rfl, fun _ => rfl, Nat.le_add_right _ _, nofun⟩
  | some operand =>
    rw [operands] at is
    dsimp only at is ⊢
    cases rest with
    | nil => cases is
    | cons m rest =>
      dsimp only at is
      split at is
      · rename_i takes
        obtain ⟨⟨size, relative⟩, tail, eq⟩ := Option.map_eq_some_iff.mp is
        obtain ⟨sib, after, rfl, same, sibSize⟩ := Operand.tail_front tail
        cases eq
        refine ⟨m :: sib, after, rfl, fun after' => ?_, ?_⟩
        · rw [List.cons_append]
          dsimp only
          rw [if_pos takes, same]
          rfl
        · cases relative with
          | true =>
            obtain ⟨rfl, rfl⟩ := sibSize
            refine ⟨Nat.le_refl _, ?_⟩
            rintro d ⟨⟩
            dsimp only
            omega
          | false =>
            refine ⟨?_, nofun⟩
            change sib.length ≤ size at sibSize
            change offset + (sib.length + 1) ≤ offset + 1 + size + form.immediate.size p
            omega
      · cases is

theorem instruction_front (is : instruction code = some shape) :
    ∃ front after : Bytes, code = front ++ after ∧ Decides front shape ∧
      front.length ≤ shape.ripDisp.getD shape.length ∧
      (∀ d ∈ shape.ripDisp, d + 4 ≤ shape.length) ∧
      shape.length ≤ code.length ∧ shape.length ≤ 15 := by
  unfold instruction at is
  generalize pieces : splitPrefixes code = both at is
  obtain ⟨p, rest⟩ := both
  dsimp only at is
  obtain ⟨⟨form, opcode⟩, isForm, kept⟩ := Option.bind_eq_some_iff.mp is
  obtain ⟨shaped, fits⟩ := Option.filter_eq_some_iff.mp kept
  rw [Bool.and_eq_true, decide_eq_true_eq, decide_eq_true_eq] at fits
  cases rest with
  | nil => cases isForm
  | cons op rest =>
    obtain ⟨front, length, rfl, sameSplit⟩ := splitPrefixes_append pieces
    obtain ⟨more, after, rfl, opcodeLength, sameForm⟩ := formOf_front isForm
    have dropped : ∀ after : Bytes, (op :: (more ++ after)).drop opcode = after := by
      intro after
      rw [← opcodeLength, List.drop_succ_cons, List.drop_left]
    rw [dropped] at shaped
    obtain ⟨operand, last, rfl, sameShape, before, inside⟩ := shapeAt_front shaped
    refine ⟨front ++ op :: (more ++ operand), last, by simp, fun after' long => ?_, ?_, inside, fits⟩
    · unfold instruction
      rw [List.append_assoc, List.cons_append, List.append_assoc, sameSplit]
      dsimp only
      rw [sameForm, Option.bind_some]
      rw [dropped, sameShape, Option.filter_some, if_pos]
      rw [Bool.and_eq_true, decide_eq_true_eq, decide_eq_true_eq]
      refine ⟨?_, fits.2⟩
      simp only [List.length_append, List.length_cons] at long ⊢
      omega
    · rw [List.length_append, List.length_cons, List.length_append]
      omega

/-- What the displacement at an offset adds to the address of the next instruction. -/
def displacement (code : Bytes) (d : Nat) : UInt64 :=
  ((wordAt code d).getD 0).toInt32.toInt64.toUInt64

def fixedBytes (shape : Shape) (code : Bytes) : Bytes :=
  match shape.ripDisp with
  | none => code.take shape.length
  | some d => code.take d ++ (code.take shape.length).drop (d + 4)

structure Meaning where
  shape : Shape
  bytes : Bytes
  operand : Option UInt64
  deriving DecidableEq

def meaningOf (shape : Shape) (code : Bytes) (a : UInt64) : Meaning where
  shape
  bytes := fixedBytes shape code
  operand := shape.ripDisp.map fun d => a + .ofNat shape.length + displacement code d

def meaningAt (m : Space) (a : UInt64) : Option Meaning :=
  (instruction (m.read a 15)).map fun shape => meaningOf shape (m.read a 15) a

/-- The instructions from one address to another, one right after the other. -/
inductive Lists (m : Space) : UInt64 → List Meaning → UInt64 → Prop
  | nil (a : UInt64) : Lists m a [] a
  | cons {a b : UInt64} {i : Meaning} {rest : List Meaning} (here : meaningAt m a = some i)
      (next : Lists m (a + .ofNat i.shape.length) rest b) : Lists m a (i :: rest) b

theorem wordAt_read (m : Space) (a : UInt64) {d n : Nat} (within : d + 4 ≤ n) :
    wordAt (m.read a n) d = wordAt (m.read (a + .ofNat d) 4) 0 := by
  obtain ⟨rest, rfl⟩ := Nat.exists_eq_add_of_le within
  unfold wordAt
  rw [Space.read_drop _ _ (by omega), Nat.add_assoc, Nat.add_sub_cancel_left, Space.read_add]
  rfl

theorem meaningOf_read (m : Space) (a : UInt64) {n : Nat} (long : shape.length ≤ n)
    (inside : ∀ d ∈ shape.ripDisp, d + 4 ≤ shape.length) :
    meaningOf shape (m.read a n) a = meaningOf shape (m.read a shape.length) a := by
  unfold meaningOf fixedBytes displacement
  cases relative : shape.ripDisp with
  | none => simp only [Option.map_none, Space.read_take _ _ long, Space.read_take _ _ (Nat.le_refl _)]
  | some d =>
    have within := inside d relative
    simp only [Option.map_some, Space.read_take _ _ long, Space.read_take _ _ (Nat.le_refl _),
      Space.read_take m a (show d ≤ n by omega), Space.read_take m a (show d ≤ shape.length by omega),
      wordAt_read m a (show d + 4 ≤ n by omega), wordAt_read m a within]

theorem meaningAt_of_front {m : Space} {a : UInt64} {front : Bytes}
    (decides : Decides front shape) (starts : m.read a front.length = front)
    (short : front.length ≤ shape.length) (fifteen : shape.length ≤ 15)
    (inside : ∀ d ∈ shape.ripDisp, d + 4 ≤ shape.length) :
    meaningAt m a = some (meaningOf shape (m.read a shape.length) a) := by
  obtain ⟨rest, room⟩ := Nat.exists_eq_add_of_le (short.trans fifteen)
  have known : instruction (m.read a 15) = some shape := by
    rw [room, Space.read_add, starts]
    refine decides _ ?_
    rw [Space.length_read]
    omega
  unfold meaningAt
  rw [known, Option.map_some, meaningOf_read _ _ fifteen inside]

theorem read_front {m : Space} {a : UInt64} {n : Nat} {front after : Bytes}
    (whole : m.read a n = front ++ after) : m.read a front.length = front := by
  have size := congrArg List.length whole
  rw [Space.length_read, List.length_append] at size
  rw [← Space.read_take m a (show front.length ≤ n by omega), whole, List.take_left]

section Moved

variable {m m' : Space} {a a' : UInt64} {n : Nat} {shape : Shape}

theorem meaningAt_of_instruction (is : instruction (m.read a n) = some shape) :
    meaningAt m a = some (meaningOf shape (m.read a shape.length) a) := by
  obtain ⟨front, after, whole, decides, before, inside, -, fifteen⟩ := instruction_front is
  refine meaningAt_of_front decides (read_front whole) ?_ fifteen inside
  cases relative : shape.ripDisp with
  | none => rwa [relative] at before
  | some d =>
    have within := inside d relative
    rw [relative] at before
    change front.length ≤ d at before
    omega

theorem meaningAt_relocated (is : instruction (m.read a n) = some shape) {d : Nat}
    (relative : shape.ripDisp = some d) {v : UInt32}
    (moved : m'.read a' shape.length = Lib.write (m.read a shape.length) d v)
    (addressed : a' + .ofNat shape.length + v.toInt32.toInt64.toUInt64 =
      a + .ofNat shape.length + displacement (m.read a shape.length) d) :
    meaningAt m' a' = meaningAt m a := by
  rw [meaningAt_of_instruction is]
  obtain ⟨front, after, whole, decides, before, inside, long, fifteen⟩ := instruction_front is
  have within := inside d relative
  rw [relative] at before
  change front.length ≤ d at before
  have parts : Lib.write (m.read a shape.length) d v =
      m.read a d ++ (wordBytes v ++ (m.read a shape.length).drop (d + 4)) := by
    rw [Lib.write, Space.read_take _ _ (by omega), List.append_assoc]
  have starts : m'.read a' front.length = front := by
    rw [← Space.read_take m' a' (show front.length ≤ shape.length by omega), moved, parts,
      List.take_append_of_le_length (by rw [Space.length_read]; exact before),
      Space.read_take _ _ before, read_front whole]
  rw [meaningAt_of_front decides starts (by omega) fifteen inside]
  have word : wordAt (Lib.write (m.read a shape.length) d v) d = some v :=
    wordAt_of_drop (by rw [parts, List.drop_left' (Space.length_read ..)])
  have fixed : fixedBytes shape (m'.read a' shape.length) = fixedBytes shape (m.read a shape.length) := by
    unfold fixedBytes
    rw [relative, moved]
    dsimp only
    have size : (Lib.write (m.read a shape.length) d v).length = shape.length := by
      rw [← moved, Space.length_read]
    rw [List.take_of_length_le size.le, List.take_of_length_le (Space.length_read ..).le, parts,
      List.take_left' (Space.length_read ..), ← List.append_assoc,
      List.drop_left' (by rw [List.length_append, Space.length_read, length_wordBytes]),
      Space.read_take _ _ (by omega)]
  unfold meaningOf
  rw [fixed, relative, Option.map_some, Option.map_some, ← addressed, displacement, moved, word]
  rfl

theorem meaningAt_copied (is : instruction (m.read a n) = some shape) (plain : shape.ripDisp = none)
    (same : m'.read a' shape.length = m.read a shape.length) : meaningAt m' a' = meaningAt m a := by
  obtain ⟨front, after, whole, decides, before, inside, long, fifteen⟩ := instruction_front is
  rw [plain] at before
  change front.length ≤ shape.length at before
  have starts : m'.read a' front.length = front := by
    rw [← Space.read_take m' a' before, same, Space.read_take _ _ before, read_front whole]
  rw [meaningAt_of_instruction is, meaningAt_of_front decides starts before fifteen inside, same]
  unfold meaningOf
  rw [plain]
  rfl

end Moved

def indirectJump (m : Space) (a : UInt64) : Option UInt64 :=
  if m.read a 2 = [0xFF, 0x25] then
    some (quadOf (m.read (a + 6 + displacement (m.read (a + 2) 4) 0) 8))
  else none

end EdvrPatch.X64
