import EdvrPatch.Lib.Words

/-! Guarded reads of the game's memory. -/
namespace EdvrPatch

open Lib

/-- The memory of the game's process: a byte that cannot be read raises a fault. The
system never maps the first 64 KiB. -/
structure Memory where
  byte : UInt64 → Option UInt8
  unmapped : ∀ a, a < 0x10000 → byte a = none

def Memory.copy (m : Memory) (address : UInt64) (bytes : Nat) : Option Bytes :=
  (List.range bytes).mapM fun i => m.byte (address + .ofNat i)

def littleEndian (bytes : Bytes) : UInt64 :=
  bytes.foldr (fun b v => (v <<< 8) ||| b.toUInt64) 0

end EdvrPatch
