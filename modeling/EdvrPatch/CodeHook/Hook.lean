import EdvrPatch.CodeHook.Decoder
import EdvrPatch.Lib.Space

/-! The code hook (`code_hook.cpp`): a jump over the first instructions of a function, and
the trampoline that these are moved to. -/
namespace EdvrPatch

open Lib

structure CodeHook where
  target : UInt64 := 0
  replacement : UInt64 := 0
  trampoline : UInt64 := 0
  original : Bytes := List.replicate 16 0
  stolen : Nat := 0
  installed : Bool := false

namespace CodeHook

def kCodeHookPatchBytes : Nat := 5

structure Piece where
  offset : Nat
  length : Nat
  ripDisp : Nat
  deriving DecidableEq

/-- What the system and the caller's preparation answer to an installation. -/
structure Answers where
  /-- The bytes at an offset can be read. -/
  readable : Nat → Bool := fun _ => true
  trampoline : Option UInt64
  /-- A fault while the trampoline is built, with what the block then holds. -/
  buildFault : Option Space := none
  executable : Bool := true
  prepared : Bool := true
  writable : Bool := true
  stored : Bool := true

/-- Whole instructions until the patch is covered, eight at most. The second result is
their length. -/
def decodePieces (m : Space) (target : UInt64) (readable : Nat → Bool) :
    Nat → Nat → Option (List Piece × Nat)
  | room, stolen =>
    if kCodeHookPatchBytes ≤ stolen then some ([], stolen)
    else
      match room with
      | 0 => none
      | room + 1 =>
        if readable stolen then
          match codeInstructionLength (m.read (target + .ofNat stolen) (16 - stolen)) with
          | (0, _) => none
          | (len, rip) =>
            (decodePieces m target readable room (stolen + len)).map fun (pieces, total) =>
              ({ offset := stolen, length := len, ripDisp := rip } :: pieces, total)
        else none

def int32At (m : Space) (a : UInt64) : Int32 :=
  ((wordAt (m.read a 4) 0).getD 0).toInt32

def addressedBy (m : Space) (target : UInt64) (p : Piece) : UInt64 :=
  target + .ofNat (p.offset + p.length) + (int32At m (target + .ofNat (p.offset + p.ripDisp))).toInt64.toUInt64

def relocated (m : Space) (target tramp : UInt64) (p : Piece) : Int64 :=
  (addressedBy m target p).toInt64 - (tramp + .ofNat (p.offset + p.length)).toInt64

def fitsInt32 (v : Int64) : Bool :=
  Int32.minValue.toInt64 ≤ v && v ≤ Int32.maxValue.toInt64

/-- Every rip-relative displacement is written anew, up to one that does not fit. -/
def relocate (target tramp : UInt64) : List Piece → Space → Space × Bool
  | [], m => (m, true)
  | p :: pieces, m =>
    if p.ripDisp = 0 then relocate target tramp pieces m
    else
      let now := relocated m target tramp p
      if fitsInt32 now then
        relocate target tramp pieces
          (m.write (tramp + .ofNat (p.offset + p.ripDisp)) (wordBytes now.toInt32.toUInt32))
      else (m, false)

def jumpBack (resume : UInt64) : Bytes :=
  [0xFF, 0x25, 0x00, 0x00, 0x00, 0x00] ++ quadBytes resume

def displacementTo (replacement target : UInt64) : Int64 :=
  replacement.toInt64 - (target.toInt64 + 5)

def Answers.merge (block : Space) (tramp : UInt64) (bytes : Nat) (m : Space) : Space :=
  fun x => if (x - tramp).toNat < bytes then block x else m x

structure Outcome where
  memory : Space
  hook : CodeHook
  result : Bool

def build (hook : CodeHook) (m : Space) (target tramp : UInt64) (pieces : List Piece) (stolen : Nat) :
    Outcome :=
  let m := m.write tramp (m.read target stolen)
  match relocate target tramp pieces m with
  | (m, false) => { memory := m, hook, result := false }
  | (m, true) =>
    let m := m.write (tramp + .ofNat stolen) (jumpBack (target + .ofNat stolen))
    { memory := m
      hook := { hook with original := m.read target stolen ++ hook.original.drop stolen }
      result := true }

/-- The aligned store of the patch. What the word holds behind the patch stays. -/
def patch (m : Space) (target replacement : UInt64) : Space :=
  m.write target (0xE9 :: (wordBytes (displacementTo replacement target).toInt32.toUInt32 ++
    (m.read target 8).drop kCodeHookPatchBytes))

def install (hook : CodeHook) (m : Space) (target replacement : UInt64) (answers : Answers) : Outcome :=
  let refused (m : Space) (hook : CodeHook) : Outcome := { memory := m, hook, result := false }
  if hook.installed || target == 0 || replacement == 0 then refused m hook
  else if target % 8 ≠ 0 then refused m hook
  else
    match decodePieces m target answers.readable 8 0 with
    | none => refused m hook
    | some (pieces, stolen) =>
      if 16 < stolen then refused m hook
      else
        match answers.trampoline with
        | none => refused m hook
        | some tramp =>
          match answers.buildFault with
          | some block => refused (Answers.merge block tramp (stolen + 14) m) hook
          | none =>
            let built := build hook m target tramp pieces stolen
            let m := built.memory
            let hook := built.hook
            if !built.result then refused m hook
            else if !answers.executable then refused m hook
            else if !fitsInt32 (displacementTo replacement target) then refused m hook
            else if !answers.prepared then refused m hook
            else if !answers.writable then refused m hook
            else if !answers.stored then refused m hook
            else
              { memory := patch m target replacement
                hook := { hook with target, replacement, trampoline := tramp, stolen, installed := true }
                result := true }

structure Removal where
  checked : Bool := true
  read : Bool := true
  writable : Bool := true
  stored : Bool := true

def ours (hook : CodeHook) (m : Space) : Bool :=
  m.read hook.target 1 == [0xE9] &&
    int32At m (hook.target + 1) == (displacementTo hook.replacement hook.target).toInt32

/-- The displaced bytes over the word as it is read now, which is zero where it cannot be. -/
def restored (hook : CodeHook) (m : Space) (read : Bool) : Bytes :=
  let word := if read then m.read hook.target 8 else List.replicate 8 0
  let count := if hook.stolen < 8 then hook.stolen else 8
  hook.original.take count ++ word.drop count

def uninstall (hook : CodeHook) (m : Space) (answers : Removal) : Space × CodeHook :=
  if !hook.installed then (m, hook)
  else
    let m' :=
      if answers.checked && ours hook m then
        if answers.writable && answers.stored then m.write hook.target (restored hook m answers.read)
        else m
      else m
    (m', { hook with target := 0, replacement := 0, trampoline := 0, stolen := 0, installed := false })

end CodeHook

end EdvrPatch
