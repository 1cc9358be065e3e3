import Mathlib

/-! The length decoder of the code hook (`code_hook.cpp`). -/
namespace EdvrPatch.CodeHook

def isRexPrefix (b : UInt8) : Bool :=
  0x40 ≤ b && b ≤ 0x4F

/-- The bytes from the ModRM byte to the end of the displacement, and whether the operand
is rip-relative. A SIB byte without a displacement is refused. -/
def modrmSize (modrm : UInt8) : Option (Nat × Bool) :=
  let mod := modrm >>> 6
  let rm := modrm &&& 7
  if mod = 3 then some (1, false)
  else
    let extra := if rm = 4 then 2 else 1
    if mod = 0 then
      if rm = 5 then some (extra + 4, true)
      else if rm = 4 then none
      else some (extra, false)
    else if mod = 1 then some (extra + 1, false)
    else some (extra + 4, false)

inductive OpcodeCase
  | bare
  | modrm (immediate : Nat)
  | movImmediate
  | twoByte
  | refused
  deriving DecidableEq

def opcodeCase (op : UInt8) : OpcodeCase :=
  if ([0x50, 0x51, 0x52, 0x53, 0x54, 0x55, 0x56, 0x57,
      0x58, 0x59, 0x5A, 0x5B, 0x5C, 0x5D, 0x5E, 0x5F] : List Nat).contains op.toNat then .bare
  else if ([0x88, 0x89, 0x8A, 0x8B, 0x8D,
      0x00, 0x01, 0x02, 0x03, 0x08, 0x09, 0x0A, 0x0B,
      0x20, 0x21, 0x22, 0x23, 0x28, 0x29, 0x2A, 0x2B,
      0x30, 0x31, 0x32, 0x33, 0x38, 0x39, 0x3A, 0x3B,
      0xFE, 0xFF, 0x84, 0x85] : List Nat).contains op.toNat then .modrm 0
  else if op = 0x83 then .modrm 1
  else if op = 0x81 then .modrm 4
  else if ([0xB8, 0xB9, 0xBA, 0xBB, 0xBC, 0xBD, 0xBE, 0xBF] : List Nat).contains op.toNat then .movImmediate
  else if op = 0x90 then .bare
  else if op = 0x0F then .twoByte
  else .refused

/-- The prefixes that may stand in front of the opcode: one operand-size prefix, and REX
behind it. -/
def prefixLength (code : List UInt8) : Nat :=
  let i := if code[0]? = some 0x66 then 1 else 0
  if (code[i]?).any isRexPrefix then i + 1 else i

def ifAvailable (code : List UInt8) (length : Nat) : Nat :=
  if length ≤ code.length then length else 0

def modrmLength (code : List UInt8) (i immediate : Nat) : Nat × Nat :=
  match code[i]? with
  | none => (0, 0)
  | some modrm =>
    match modrmSize modrm with
    | none => (0, 0)
    | some (extra, rip) => (ifAvailable code (i + extra + immediate), if rip then i + 1 else 0)

/-- The length of the instruction at the front, zero where it is refused, and the offset of
its rip-relative displacement, zero where it has none. -/
def codeInstructionLength (code : List UInt8) : Nat × Nat :=
  let i := prefixLength code
  match code[i]? with
  | none => (0, 0)
  | some op =>
    match opcodeCase op with
    | .bare => (i + 1, 0)
    | .modrm immediate => modrmLength code (i + 1) immediate
    | .movImmediate =>
      let wide := 1 ≤ i && (code[i - 1]?).any fun b => isRexPrefix b && b &&& 0x08 != 0
      (ifAvailable code (i + 1 + if wide then 8 else 4), 0)
    | .twoByte => if code[i + 1]? = some 0x1F then modrmLength code (i + 2) 0 else (0, 0)
    | .refused => (0, 0)

end EdvrPatch.CodeHook
