import EdvrPatch.CodeHook.Decoder
import EdvrPatch.X64.Encoding

/-! The length decoder against the processor's opcode maps. -/
namespace EdvrPatch.CodeHook

open X64

theorem forall_byte {P : UInt8 → Prop} (all : ∀ n : Fin 256, P (UInt8.ofFin n)) (b : UInt8) : P b := by
  simpa using all b.toFin

/-! ### The tables side by side -/

theorem isRexPrefix_eq (b : UInt8) : isRexPrefix b = isRex b :=
  forall_byte (P := fun b => isRexPrefix b = isRex b) (by decide +kernel) b

theorem rexWide_eq (b : UInt8) : (b &&& 0x08 != 0) = (b.toNat / 8 % 2 == 1) :=
  forall_byte (P := fun b => (b &&& 0x08 != 0) = (b.toNat / 8 % 2 == 1)) (by decide +kernel) b

theorem not_legacy_of_rex {b : UInt8} (rex : isRex b = true) : isLegacyPrefix b = false :=
  forall_byte (P := fun b => isRex b = true → isLegacyPrefix b = false) (by decide +kernel) b rex

def operandOf (op : UInt8) : Operand :=
  if op = 0x8D then .memory
  else if op = 0xFE then .group [0, 1] [0, 1]
  else if op = 0xFF then .group [0, 1, 2, 4, 6] [0, 1, 2, 3, 4, 5, 6]
  else .any

def immediateOf (bytes : Nat) : Immediate :=
  if bytes = 0 then .none else if bytes = 1 then .byte else .operand

def OpcodeCase.bytes : OpcodeCase → Option Nat
  | .modrm immediate => some immediate
  | _ => none

def EndsPrefixes (op : UInt8) : Prop :=
  isLegacyPrefix op = false ∧ isRex op = false

instance (op : UInt8) : Decidable (EndsPrefixes op) :=
  inferInstanceAs (Decidable (_ ∧ _))

structure CaseTable (op : UInt8) (c : OpcodeCase) : Prop where
  ends : c ≠ .refused → EndsPrefixes op
  bare : c = .bare → oneByte op = some {} ∧ op ≠ 0x81 ∧ ¬(0xB8 ≤ op ∧ op ≤ 0xBF) ∧
    operandOf op = .any ∧ op ≠ 0x0F
  modrm : ∀ k ∈ c.bytes,
    oneByte op = some { modrm := some (operandOf op), immediate := immediateOf k } ∧
      (k = 0 ∨ k = 1 ∨ k = 4) ∧ (k = 4 ↔ op = 0x81) ∧ ¬(0xB8 ≤ op ∧ op ≤ 0xBF) ∧ op ≠ 0x0F
  movImmediate : c = .movImmediate → oneByte op = some { immediate := .full } ∧ op ≠ 0x81 ∧
    (0xB8 ≤ op ∧ op ≤ 0xBF) ∧ operandOf op = .any ∧ op ≠ 0x0F
  twoByte : c = .twoByte → op = 0x0F

instance (op : UInt8) (c : OpcodeCase) : Decidable (CaseTable op c) :=
  decidable_of_iff ((c ≠ .refused → EndsPrefixes op) ∧
    (c = .bare → oneByte op = some {} ∧ op ≠ 0x81 ∧ ¬(0xB8 ≤ op ∧ op ≤ 0xBF) ∧
      operandOf op = .any ∧ op ≠ 0x0F) ∧
    (∀ k ∈ c.bytes,
      oneByte op = some { modrm := some (operandOf op), immediate := immediateOf k } ∧
        (k = 0 ∨ k = 1 ∨ k = 4) ∧ (k = 4 ↔ op = 0x81) ∧ ¬(0xB8 ≤ op ∧ op ≤ 0xBF) ∧ op ≠ 0x0F) ∧
    (c = .movImmediate → oneByte op = some { immediate := .full } ∧ op ≠ 0x81 ∧
      (0xB8 ≤ op ∧ op ≤ 0xBF) ∧ operandOf op = .any ∧ op ≠ 0x0F) ∧
    (c = .twoByte → op = 0x0F))
    ⟨fun ⟨ends, bare, modrm, mov, two⟩ => ⟨ends, bare, modrm, mov, two⟩,
      fun ⟨ends, bare, modrm, mov, two⟩ => ⟨ends, bare, modrm, mov, two⟩⟩

theorem opcode_table (op : UInt8) : CaseTable op (opcodeCase op) :=
  forall_byte (P := fun op => CaseTable op (opcodeCase op)) (by decide +kernel) op

theorem tail_of_modrmSize {m : UInt8} {extra : Nat} {rip : Bool}
    (measured : modrmSize m = some (extra, rip)) {rest : List UInt8} (there : extra ≤ rest.length + 1) :
    Operand.tail m rest = some (extra - 1, rip) ∧ 1 ≤ extra ∧ extra ≤ 6 := by
  have table := forall_byte (P := fun m => ∀ size ∈ modrmSize m,
    1 ≤ size.1 ∧ size.1 ≤ 6 ∧
      if Operand.modOf m = 3 then size = (1, false)
      else if Operand.rmOf m = 4 then
        (Operand.modOf m = 1 ∧ size = (3, false) ∨ Operand.modOf m = 2 ∧ size = (6, false))
      else if Operand.modOf m = 0 ∧ Operand.rmOf m = 5 then size = (5, true)
      else size = (1 + (if Operand.modOf m = 1 then 1 else if Operand.modOf m = 2 then 4 else 0), false))
    (by decide +kernel) m (extra, rip) measured
  obtain ⟨positive, small, shape⟩ := table
  refine ⟨?_, positive, small⟩
  unfold Operand.tail
  split at shape
  · rename_i register
    rw [if_pos register]
    cases shape
    rfl
  rename_i notRegister
  rw [if_neg notRegister]
  split at shape
  · rename_i sib
    rw [if_pos sib]
    cases rest with
    | nil =>
      rcases shape with ⟨-, same⟩ | ⟨-, same⟩
      · cases same
        simp at there
      · cases same
        simp at there
    | cons b rest =>
      unfold Operand.sibDisplacement
      rcases shape with ⟨mod, same⟩ | ⟨mod, same⟩
      · cases same
        simp [mod]
      · cases same
        simp [mod]
  rename_i noSib
  rw [if_neg noSib]
  split at shape
  · rename_i relative
    rw [if_pos relative]
    cases shape
    rfl
  · rename_i absolute
    rw [if_neg absolute]
    cases shape
    rw [Nat.add_sub_cancel_left]

/-! ### The prefixes -/

/-- The code is read alike up to its opcode: an operand-size prefix, REX, and the opcode. -/
structure ReadAs (code : List UInt8) (p : Prefixes) (op : UInt8) (rest : List UInt8) : Prop where
  legacy : p.legacy = [] ∨ p.legacy = [0x66]
  split : splitPrefixes code = (p, op :: rest)
  offset : prefixLength code = p.length
  tail : code.drop p.length = op :: rest
  small : p.small = decide (code[0]? = some 0x66)
  wide : (decide (1 ≤ p.length) && (code[p.length - 1]?).any fun b => isRexPrefix b && b &&& 0x08 != 0) =
    p.wide

theorem wide_of_rex {b : UInt8} (rex : isRex b = true) :
    (isRexPrefix b && b &&& 0x08 != 0) = (b.toNat / 8 % 2 == 1) := by
  rw [isRexPrefix_eq, rex, Bool.true_and, rexWide_eq]

theorem readAs_of_op {code : List UInt8} {op : UInt8} (found : code[prefixLength code]? = some op)
    (ends : EndsPrefixes op) : ∃ p rest, ReadAs code p op rest := by
  obtain ⟨notLegacy, notRex⟩ := ends
  have operandSize : isLegacyPrefix 0x66 = true := by decide
  cases code with
  | nil => cases found
  | cons b code =>
    by_cases sized : b = 0x66
    · subst sized
      cases code with
      | nil => cases found
      | cons b code =>
        cases rex : isRex b with
        | true =>
          have two : prefixLength (0x66 :: b :: code) = 2 := by
            simp [prefixLength, isRexPrefix_eq, rex]
          rw [two] at found
          cases code with
          | nil => cases found
          | cons c code =>
            cases found
            refine ⟨{ legacy := [0x66], rex := some b }, code, .inr rfl, ?_, two, rfl, rfl, ?_⟩
            · unfold splitPrefixes
              rw [List.takeWhile_cons_of_pos operandSize, List.dropWhile_cons_of_pos operandSize,
                List.takeWhile_cons_of_neg (by simp [not_legacy_of_rex rex]),
                List.dropWhile_cons_of_neg (by simp [not_legacy_of_rex rex])]
              dsimp only
              rw [if_pos rex]
            · exact wide_of_rex rex
        | false =>
          have one : prefixLength (0x66 :: b :: code) = 1 := by
            simp [prefixLength, isRexPrefix_eq, rex]
          rw [one] at found
          cases found
          refine ⟨{ legacy := [0x66] }, code, .inr rfl, ?_, one, rfl, rfl, rfl⟩
          unfold splitPrefixes
          rw [List.takeWhile_cons_of_pos operandSize, List.dropWhile_cons_of_pos operandSize,
            List.takeWhile_cons_of_neg (by simp [notLegacy]),
            List.dropWhile_cons_of_neg (by simp [notLegacy])]
          dsimp only
          rw [if_neg (by simp [notRex])]
    · cases rex : isRex b with
      | true =>
        have one : prefixLength (b :: code) = 1 := by
          simp [prefixLength, sized, isRexPrefix_eq, rex]
        rw [one] at found
        cases code with
        | nil => cases found
        | cons c code =>
          cases found
          refine ⟨{ rex := some b }, code, .inl rfl, ?_, one, rfl, ?_, ?_⟩
          · unfold splitPrefixes
            rw [List.takeWhile_cons_of_neg (by simp [not_legacy_of_rex rex]),
              List.dropWhile_cons_of_neg (by simp [not_legacy_of_rex rex])]
            dsimp only
            rw [if_pos rex]
          · simp [Prefixes.small, sized]
          · exact wide_of_rex rex
      | false =>
        have none_ : prefixLength (b :: code) = 0 := by
          simp [prefixLength, sized, isRexPrefix_eq, rex]
        rw [none_] at found
        cases found
        refine ⟨{}, code, .inl rfl, ?_, none_, rfl, ?_, rfl⟩
        · unfold splitPrefixes
          rw [List.takeWhile_cons_of_neg (by simp [notLegacy]),
            List.dropWhile_cons_of_neg (by simp [notLegacy])]
          dsimp only
          rw [if_neg (by simp [notRex])]
        · simp [Prefixes.small, sized]

namespace ReadAs

variable {code rest : List UInt8} {p : Prefixes} {op : UInt8}

theorem length (read : ReadAs code p op rest) : code.length = p.length + 1 + rest.length := by
  have dropped := congrArg List.length read.tail
  rw [List.length_drop, List.length_cons] at dropped
  omega

theorem at_ (read : ReadAs code p op rest) (k : Nat) : code[p.length + 1 + k]? = rest[k]? := by
  have dropped : (code.drop p.length)[k + 1]? = (op :: rest)[k + 1]? := by rw [read.tail]
  rw [List.getElem?_drop, List.getElem?_cons_succ] at dropped
  rw [← dropped]
  congr 1
  omega

theorem few (read : ReadAs code p op rest) : p.length ≤ 2 := by
  unfold Prefixes.length
  rcases read.legacy with none | one
  · rw [none]
    cases p.rex <;> simp
  · rw [one]
    cases p.rex <;> simp

theorem instruction (read : ReadAs code p op rest) {form : Form} {opcode : Nat}
    (isForm : formOf (op :: rest) = some (form, opcode)) :
    instruction code = (shapeAt p form (p.length + opcode) ((op :: rest).drop opcode)).filter
      fun shape => shape.length ≤ code.length && shape.length ≤ 15 := by
  unfold X64.instruction
  rw [read.split]
  dsimp only
  rw [isForm]
  rfl

end ReadAs

theorem formOf_cons {op : UInt8} (one : op ≠ 0x0F) (rest : List UInt8) :
    formOf (op :: rest) = (oneByte op).map fun form => (form, 1) := by
  cases rest with
  | nil => rfl
  | cons next rest =>
    unfold formOf
    dsimp only
    rw [if_neg one]

theorem modrmLength_spec {code : List UInt8} {i immediate n rip : Nat}
    (measured : modrmLength code i immediate = (n, rip)) (positive : 0 < n) :
    ∃ m rest extra relative, code.drop i = m :: rest ∧ Operand.tail m rest = some (extra, relative) ∧
      n = i + 1 + extra + immediate ∧ n ≤ code.length ∧ extra ≤ 5 ∧
      rip = if relative then i + 1 else 0 := by
  unfold modrmLength at measured
  split at measured
  · cases measured
    cases positive
  rename_i m found
  split at measured
  · cases measured
    cases positive
  rename_i extra relative size
  obtain ⟨length, rfl⟩ := Prod.mk.inj measured
  unfold ifAvailable at length
  split at length
  · rename_i fits
    obtain ⟨inside, same⟩ := List.getElem?_eq_some_iff.mp found
    have dropped : code.drop i = m :: code.drop (i + 1) := by
      rw [← same]
      exact List.drop_eq_getElem_cons inside
    have there : extra ≤ (code.drop (i + 1)).length + 1 := by
      rw [List.length_drop]
      omega
    obtain ⟨tail, some_, few⟩ := tail_of_modrmSize size there
    exact ⟨m, _, extra - 1, relative, dropped, tail, by omega, by omega, by omega, rfl⟩
  · omega

/-! ### What the decoder gets wrong -/

/-- The immediate has two bytes, because of an operand-size prefix that REX.W does not
override. -/
def SmallImmediate (code : List UInt8) : Prop :=
  let i := prefixLength code
  code[0]? = some 0x66 ∧
    (decide (1 ≤ i) && (code[i - 1]?).any fun b => isRexPrefix b && b &&& 0x08 != 0) = false ∧
    ∃ op, code[i]? = some op ∧ (op = 0x81 ∨ 0xB8 ≤ op ∧ op ≤ 0xBF)

/-- There is no such instruction: the address of a register, a member that the groups at FE
and FF do not have, or a far transfer through a register. -/
def Undefined (op m : UInt8) : Prop :=
  op = 0x8D ∧ Operand.modOf m = 3 ∨ op = 0xFE ∧ 1 < Operand.regOf m ∨
    op = 0xFF ∧ (Operand.regOf m = 7 ∨
      Operand.modOf m = 3 ∧ (Operand.regOf m = 3 ∨ Operand.regOf m = 5))

def NoInstruction (code : List UInt8) : Prop :=
  ∃ op m, code[prefixLength code]? = some op ∧ code[prefixLength code + 1]? = some m ∧ Undefined op m

theorem takes_iff (op m : UInt8) : (operandOf op).takes m = true ↔ ¬Undefined op m := by
  have below : Operand.regOf m < 8 := Nat.mod_lt _ (by decide)
  unfold operandOf Undefined
  by_cases lea : op = 0x8D
  · subst lea
    simp [Operand.takes]
  by_cases fe : op = 0xFE
  · subst fe
    simp only [Operand.takes]
    generalize Operand.regOf m = reg at below ⊢
    interval_cases reg <;> simp
  by_cases ff : op = 0xFF
  · subst ff
    simp only [Operand.takes]
    generalize Operand.regOf m = reg at below ⊢
    interval_cases reg <;> simp
  · simp [lea, fe, ff, Operand.takes]

/-! ### What the decoder says -/

def shapeOf (n rip : Nat) : Shape where
  length := n
  ripDisp := if rip = 0 then none else some rip

namespace ReadAs

variable {code rest : List UInt8} {p : Prefixes} {op : UInt8} {n rip : Nat}

theorem modrm (read : ReadAs code p op rest) {operand : Operand} {immediate : Immediate}
    {opcode k : Nat}
    (isForm : formOf (op :: rest) = some ({ modrm := some operand, immediate }, opcode))
    (measured : modrmLength code (p.length + opcode) k = (n, rip)) (positive : 0 < n)
    (short : opcode ≤ 2) (less : immediate.size p ≤ k) (four : k ≤ 4) :
    ∃ m, code[p.length + opcode]? = some m ∧ k < n ∧ X64.instruction code =
      if operand.takes m then some (shapeOf (n - k + immediate.size p) rip) else none := by
  obtain ⟨m, more, extra, relative, dropped, tail, length, inside, small, relativeAt⟩ :=
    modrmLength_spec measured positive
  have few := read.few
  refine ⟨m, ?_, by omega, ?_⟩
  · have first : (code.drop (p.length + opcode))[0]? = some m := by rw [dropped]; rfl
    rwa [List.getElem?_drop] at first
  rw [read.instruction isForm, ← read.tail, List.drop_drop, dropped]
  unfold shapeAt
  dsimp only
  split
  · rw [tail, Option.map_some, Option.filter_some, if_pos]
    · unfold shapeOf
      rw [relativeAt]
      congr 2
      · omega
      · cases relative <;> simp
    · dsimp only
      rw [Bool.and_eq_true, decide_eq_true_eq, decide_eq_true_eq]
      omega
  · rfl

theorem instruction_bare (read : ReadAs code p op rest) {immediate : Immediate}
    (isForm : formOf (op :: rest) = some ({ immediate }, 1))
    (inside : p.length + 1 + immediate.size p ≤ code.length) (eight : immediate.size p ≤ 8) :
    X64.instruction code = some (shapeOf (p.length + 1 + immediate.size p) 0) := by
  have few := read.few
  rw [read.instruction isForm]
  unfold shapeAt
  rw [Option.filter_some, if_pos]
  · rfl
  · dsimp only
    rw [Bool.and_eq_true, decide_eq_true_eq, decide_eq_true_eq]
    omega

theorem op_at (read : ReadAs code p op rest) : code[prefixLength code]? = some op := by
  have first : (code.drop p.length)[0]? = some op := by rw [read.tail]; rfl
  rwa [List.getElem?_drop, ← read.offset] at first

theorem smallImmediate_iff (read : ReadAs code p op rest) :
    SmallImmediate code ↔ p.small = true ∧ p.wide = false ∧ (op = 0x81 ∨ 0xB8 ≤ op ∧ op ≤ 0xBF) := by
  unfold SmallImmediate
  dsimp only
  rw [read.op_at, read.offset, read.wide, read.small, decide_eq_true_iff]
  simp

theorem noInstruction_iff (read : ReadAs code p op rest) {m : UInt8}
    (found : code[p.length + 1]? = some m) : NoInstruction code ↔ ¬(operandOf op).takes m = true := by
  unfold NoInstruction
  rw [read.op_at, read.offset, found, takes_iff, not_not]
  simp

theorem instruction_exists (read : ReadAs code p op rest) (any : operandOf op = .any) :
    ¬NoInstruction code := by
  rintro ⟨op', m, found, -, none⟩
  cases read.op_at.symm.trans found
  rw [← not_not (a := Undefined op m), ← takes_iff, any] at none
  exact none rfl

end ReadAs

theorem size_immediateOf {k : Nat} (known : k = 0 ∨ k = 1 ∨ k = 4) (p : Prefixes) :
    (immediateOf k).size p = if k = 4 ∧ p.small = true ∧ p.wide = false then 2 else k := by
  rcases known with rfl | rfl | rfl
  · rfl
  · rfl
  · unfold immediateOf Immediate.size
    cases p.small <;> cases p.wide <;> rfl

theorem size_full (p : Prefixes) :
    Immediate.full.size p =
      if p.small = true ∧ p.wide = false then 2 else if p.wide = true then 8 else 4 := by
  unfold Immediate.size
  cases p.small <;> cases p.wide <;> rfl

theorem ifAvailable_pos {code : List UInt8} {length n : Nat} (available : ifAvailable code length = n)
    (positive : 0 < n) : length = n ∧ n ≤ code.length := by
  unfold ifAvailable at available
  split at available
  · omega
  · omega

theorem shapeOf_length_inj {n n' rip : Nat} : some (shapeOf n rip) = some (shapeOf n' rip) ↔ n = n' := by
  unfold shapeOf
  simp

/-- The decoder is right about an instruction that it accepts, but for the two. -/
theorem codeInstructionLength_right_iff {code : List UInt8} {n rip : Nat}
    (measured : codeInstructionLength code = (n, rip)) (positive : 0 < n) :
    X64.instruction code = some (shapeOf n rip) ↔ ¬SmallImmediate code ∧ ¬NoInstruction code := by
  unfold codeInstructionLength at measured
  dsimp only at measured
  split at measured
  · cases measured
    cases positive
  rename_i op found
  have table := opcode_table op
  split at measured
  · rename_i isCase
    obtain ⟨p, rest, read⟩ := readAs_of_op found (table.ends (by rw [isCase]; simp))
    obtain ⟨form, notSized, notMov, any, one⟩ := table.bare isCase
    have isForm : formOf (op :: rest) = some ({}, 1) := by rw [formOf_cons one, form]; rfl
    have length := read.length
    rw [read.offset] at measured
    cases measured
    refine iff_of_true ?_ ⟨?_, read.instruction_exists any⟩
    · exact read.instruction_bare isForm (by rw [length]; exact Nat.le_add_right _ _) (Nat.zero_le 8)
    · rw [read.smallImmediate_iff]
      rintro ⟨-, -, sized | mov⟩
      · exact notSized sized
      · exact notMov mov
  · rename_i k isCase
    obtain ⟨p, rest, read⟩ := readAs_of_op found (table.ends (by rw [isCase]; simp))
    obtain ⟨form, known, sized, notMov, one⟩ := table.modrm k (by rw [isCase]; rfl)
    have isForm : formOf (op :: rest) =
        some ({ modrm := some (operandOf op), immediate := immediateOf k }, 1) := by
      rw [formOf_cons one, form]
      rfl
    have size := size_immediateOf known p
    rw [read.offset] at measured
    obtain ⟨m, foundM, more, is⟩ := read.modrm isForm measured positive (by decide)
      (by rw [size]; split <;> omega) (by omega)
    rw [is, read.noInstruction_iff foundM, read.smallImmediate_iff, not_not]
    split
    · rename_i takes
      rw [shapeOf_length_inj, size, iff_true_intro takes, and_true, ← sized, or_iff_left notMov]
      split
      · rename_i small
        refine iff_of_false (by omega) (not_not.mpr ⟨small.2.1, small.2.2, small.1⟩)
      · rename_i notSmall
        refine iff_of_true (by omega) ?_
        rintro ⟨small, wide, four⟩
        exact notSmall ⟨four, small, wide⟩
    · rename_i takes
      exact iff_of_false nofun fun both => takes both.2
  · rename_i isCase
    obtain ⟨p, rest, read⟩ := readAs_of_op found (table.ends (by rw [isCase]; simp))
    obtain ⟨form, notSized, mov, any, one⟩ := table.movImmediate isCase
    have isForm : formOf (op :: rest) = some ({ immediate := .full }, 1) := by
      rw [formOf_cons one, form]
      rfl
    rw [read.offset, read.wide] at measured
    obtain ⟨length, rfl⟩ := Prod.mk.inj measured
    obtain ⟨rfl, fits⟩ := ifAvailable_pos length positive
    have size := size_full p
    have sizes : 4 ≤ (if p.wide = true then 8 else 4) ∧ (if p.wide = true then 8 else 4) ≤ 8 := by
      split <;> decide
    generalize (if p.wide = true then 8 else 4) = k at fits size sizes
    have shorter : Immediate.full.size p ≤ k := by
      rw [size]
      split <;> omega
    rw [read.instruction_bare isForm (by omega) (by omega), shapeOf_length_inj,
      read.smallImmediate_iff, size, iff_true_intro (read.instruction_exists any), and_true,
      iff_true_intro (Or.inr mov), and_true]
    split
    · rename_i small
      exact iff_of_false (by omega) (not_not.mpr small)
    · rename_i notSmall
      exact iff_of_true rfl notSmall
  · rename_i isCase
    obtain ⟨p, rest, read⟩ := readAs_of_op found (table.ends (by rw [isCase]; simp))
    cases table.twoByte isCase
    split at measured
    · rename_i next
      rw [read.offset] at measured next
      obtain ⟨more, rfl⟩ : ∃ more, rest = 0x1F :: more := by
        rw [← Nat.add_zero (p.length + 1), read.at_] at next
        cases rest with
        | nil => cases next
        | cons b more => exact ⟨more, by cases next; rfl⟩
      have isForm : formOf (0x0F :: 0x1F :: more) = some ({ modrm := some .any }, 2) := rfl
      obtain ⟨m, -, -, is⟩ := read.modrm isForm measured positive (by decide) (Nat.le_refl 0)
        (by decide)
      refine iff_of_true is ⟨?_, read.instruction_exists (by decide)⟩
      rw [read.smallImmediate_iff]
      rintro ⟨-, -, known⟩
      exact absurd known (by decide)
    · cases measured
      cases positive
  · cases measured
    cases positive

/-- `sub rsp, 0x100`. -/
theorem codeInstructionLength_right_sub :
    X64.instruction [0x48, 0x81, 0xEC, 0x00, 0x01, 0x00, 0x00] = some (shapeOf 7 0) ↔
      ¬SmallImmediate [0x48, 0x81, 0xEC, 0x00, 0x01, 0x00, 0x00] ∧
        ¬NoInstruction [0x48, 0x81, 0xEC, 0x00, 0x01, 0x00, 0x00] :=
  codeInstructionLength_right_iff (by decide) (by decide)

/-- `add ax, 0x1234` takes the two bytes behind it along. -/
theorem codeInstructionLength_add_ax :
    ¬∀ (code : List UInt8) (n rip : Nat), codeInstructionLength code = (n, rip) → 0 < n →
      X64.instruction code = some (shapeOf n rip) := by
  intro right
  have wrong := right [0x66, 0x81, 0xC0, 0x34, 0x12, 0x90, 0x90] 7 0 (by decide) (by decide)
  exact absurd wrong (by decide)

end EdvrPatch.CodeHook
