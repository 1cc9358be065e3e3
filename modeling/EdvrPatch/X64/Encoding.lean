import Mathlib

/-! How long an x86-64 instruction is in 64-bit mode, after the processor's own opcode
maps: the prefixes, the integer instructions of the one-byte map, and the no-op of the
two-byte map. The other families are left out. -/
namespace EdvrPatch.X64

def isLegacyPrefix (b : UInt8) : Bool :=
  ([0x26, 0x2E, 0x36, 0x3E, 0x64, 0x65, 0x66, 0x67, 0xF0, 0xF2, 0xF3] : List Nat).contains b.toNat

def isRex (b : UInt8) : Bool :=
  b.toNat / 16 == 4

/-- Which operands a ModRM byte may name. A group tells its members apart by the `reg`
field, and some of them take their operand from memory only. -/
inductive Operand
  | any
  | memory
  | group (registers memories : List Nat)
  deriving DecidableEq

inductive Immediate
  | none
  | byte
  | word
  | frame
  /-- As the operand size, but four bytes at most. -/
  | operand
  /-- As the operand size. -/
  | full
  | near
  | address
  deriving DecidableEq

structure Form where
  modrm : Option Operand := .none
  immediate : Immediate := .none
  deriving DecidableEq

/-- The one-byte map. Nothing is said of prefixes, escapes, opcodes that 64-bit mode does
not have, and of the coprocessor and vector families. -/
def oneByte (op : UInt8) : Option Form :=
  let n := op.toNat
  if n < 0x40 then
    -- the eight arithmetic instructions, in rows of eight
    if n % 8 < 4 then some { modrm := some .any }
    else if n % 8 = 4 then some { immediate := .byte }
    else if n % 8 = 5 then some { immediate := .operand }
    else none
  else if n < 0x50 then none
  else if n < 0x60 then some {}
  else if n = 0x63 then some { modrm := some .any }
  else if n < 0x68 then none
  else if n = 0x68 then some { immediate := .operand }
  else if n = 0x69 then some { modrm := some .any, immediate := .operand }
  else if n = 0x6A then some { immediate := .byte }
  else if n = 0x6B then some { modrm := some .any, immediate := .byte }
  else if n < 0x70 then some {}
  else if n < 0x80 then some { immediate := .byte }
  else if n = 0x81 then some { modrm := some .any, immediate := .operand }
  else if n = 0x82 then none
  else if n < 0x84 then some { modrm := some .any, immediate := .byte }
  else if n < 0x8C then some { modrm := some .any }
  else if n = 0x8C then some { modrm := some (.group [0, 1, 2, 3, 4, 5] [0, 1, 2, 3, 4, 5]) }
  else if n = 0x8D then some { modrm := some .memory }
  else if n = 0x8E then some { modrm := some (.group [0, 2, 3, 4, 5] [0, 2, 3, 4, 5]) }
  else if n = 0x8F then some { modrm := some (.group [0] [0]) }
  else if n = 0x9A then none
  else if n < 0xA0 then some {}
  else if n < 0xA4 then some { immediate := .address }
  else if n = 0xA8 then some { immediate := .byte }
  else if n = 0xA9 then some { immediate := .operand }
  else if n < 0xB0 then some {}
  else if n < 0xB8 then some { immediate := .byte }
  else if n < 0xC0 then some { immediate := .full }
  else if n < 0xC2 then some { modrm := some .any, immediate := .byte }
  else if n = 0xC2 then some { immediate := .word }
  else if n = 0xC3 then some {}
  else if n < 0xC6 then none
  else if n = 0xC6 then some { modrm := some (.group [0] [0]), immediate := .byte }
  else if n = 0xC7 then some { modrm := some (.group [0] [0]), immediate := .operand }
  else if n = 0xC8 then some { immediate := .frame }
  else if n = 0xCA then some { immediate := .word }
  else if n = 0xCD then some { immediate := .byte }
  else if n = 0xCE then none
  else if n < 0xD0 then some {}
  else if n < 0xD4 then some { modrm := some .any }
  else if n < 0xD7 then none
  else if n = 0xD7 then some {}
  else if n < 0xE0 then none
  else if n < 0xE8 then some { immediate := .byte }
  else if n < 0xEA then some { immediate := .near }
  else if n = 0xEA then none
  else if n = 0xEB then some { immediate := .byte }
  else if n < 0xF0 then some {}
  else if n = 0xF1 ∨ n = 0xF4 ∨ n = 0xF5 then some {}
  else if n < 0xF6 then none
  -- of the group at F6 and F7 only the tests have an immediate; it is left out
  else if n < 0xF8 then none
  else if n < 0xFE then some {}
  else if n = 0xFE then some { modrm := some (.group [0, 1] [0, 1]) }
  else some { modrm := some (.group [0, 1, 2, 4, 6] [0, 1, 2, 3, 4, 5, 6]) }

def twoByte (op : UInt8) : Option Form :=
  if op = 0x1F then some { modrm := some .any } else none

namespace Operand

def modOf (m : UInt8) : Nat := m.toNat / 64
def regOf (m : UInt8) : Nat := m.toNat / 8 % 8
def rmOf (m : UInt8) : Nat := m.toNat % 8

def takes (o : Operand) (m : UInt8) : Bool :=
  match o with
  | .any => true
  | .memory => modOf m != 3
  | .group registers memories =>
    if modOf m = 3 then registers.contains (regOf m) else memories.contains (regOf m)

/-- A base of five without a displacement in the ModRM byte is a displacement alone. -/
def sibDisplacement (mod : Nat) (sib : UInt8) : Nat :=
  if mod = 0 ∧ sib.toNat % 8 = 5 then 4 else 0

/-- What follows the ModRM byte of an operand, and whether it is relative to the next
instruction. -/
def tail (m : UInt8) (rest : List UInt8) : Option (Nat × Bool) :=
  let displacement := if modOf m = 1 then 1 else if modOf m = 2 then 4 else 0
  if modOf m = 3 then some (0, false)
  else if rmOf m = 4 then
    match rest with
    | [] => none
    | sib :: _ => some (1 + displacement + sibDisplacement (modOf m) sib, false)
  else if modOf m = 0 ∧ rmOf m = 5 then some (4, true)
  else some (displacement, false)

end Operand

structure Prefixes where
  legacy : List UInt8 := []
  rex : Option UInt8 := none

namespace Prefixes

def length (p : Prefixes) : Nat :=
  p.legacy.length + p.rex.elim 0 fun _ => 1

def wide (p : Prefixes) : Bool :=
  p.rex.elim false fun b => b.toNat / 8 % 2 == 1

def small (p : Prefixes) : Bool :=
  p.legacy.contains 0x66

def shortAddress (p : Prefixes) : Bool :=
  p.legacy.contains 0x67

end Prefixes

def Immediate.size (p : Prefixes) : Immediate → Nat
  | .none => 0
  | .byte => 1
  | .word => 2
  | .frame => 3
  | .operand => if p.wide then 4 else if p.small then 2 else 4
  | .full => if p.wide then 8 else if p.small then 2 else 4
  | .near => 4
  | .address => if p.shortAddress then 4 else 8

/-- An instruction: its length, and where the displacement stands that is relative to the
next one. -/
structure Shape where
  length : Nat
  ripDisp : Option Nat
  deriving DecidableEq

def splitPrefixes (code : List UInt8) : Prefixes × List UInt8 :=
  let legacy := code.takeWhile isLegacyPrefix
  match code.dropWhile isLegacyPrefix with
  | b :: rest => if isRex b then ({ legacy, rex := some b }, rest) else ({ legacy }, b :: rest)
  | [] => ({ legacy }, [])

def formOf : List UInt8 → Option (Form × Nat)
  | [] => none
  | [op] => (oneByte op).map fun form => (form, 1)
  | op :: next :: _ =>
    if op = 0x0F then (twoByte next).map fun form => (form, 2)
    else (oneByte op).map fun form => (form, 1)

def shapeAt (p : Prefixes) (form : Form) (offset : Nat) (rest : List UInt8) : Option Shape :=
  match form.modrm with
  | none => some { length := offset + form.immediate.size p, ripDisp := none }
  | some operand =>
    match rest with
    | [] => none
    | m :: rest =>
      if operand.takes m then
        (Operand.tail m rest).map fun (size, relative) =>
          { length := offset + 1 + size + form.immediate.size p
            ripDisp := if relative then some (offset + 1) else none }
      else none

/-- The instruction that the bytes begin with. It has fifteen bytes at most. -/
def instruction (code : List UInt8) : Option Shape :=
  let (p, rest) := splitPrefixes code
  (formOf rest).bind fun (form, opcode) =>
    (shapeAt p form (p.length + opcode) (rest.drop opcode)).filter fun shape =>
      shape.length ≤ code.length && shape.length ≤ 15

end EdvrPatch.X64
