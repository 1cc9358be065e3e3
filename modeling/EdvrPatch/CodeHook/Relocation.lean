import EdvrPatch.CodeHook.Hook
import EdvrPatch.CodeHook.Lengths
import EdvrPatch.X64.Placement

/-! Moving whole instructions: each piece that the code hook writes anew does at its new
place what it did at the old one. -/
namespace EdvrPatch.CodeHook

open Lib X64

/-! ### The pieces -/

def Consecutive : Nat → List Piece → Nat → Prop
  | s, [], t => s = t
  | s, p :: pieces, t => p.offset = s ∧ Consecutive (s + p.length) pieces t

theorem Consecutive.le {s t : Nat} {pieces : List Piece} (chain : Consecutive s pieces t) : s ≤ t := by
  induction pieces generalizing s with
  | nil => exact Nat.le_of_eq chain
  | cons p pieces ih => exact (Nat.le_add_right _ _).trans (ih chain.2)

def Measured (m : Space) (target : UInt64) (p : Piece) : Prop :=
  codeInstructionLength (m.read (target + .ofNat p.offset) (16 - p.offset)) = (p.length, p.ripDisp) ∧
    0 < p.length

theorem decodePieces_spec {m : Space} {target : UInt64} {readable : Nat → Bool} {room s t : Nat}
    {pieces : List Piece} (decoded : decodePieces m target readable room s = some (pieces, t)) :
    Consecutive s pieces t ∧ kCodeHookPatchBytes ≤ t ∧ ∀ p ∈ pieces, Measured m target p := by
  induction room generalizing s pieces with
  | zero =>
    unfold decodePieces at decoded
    split at decoded
    · rename_i covered
      cases decoded
      exact ⟨rfl, covered, nofun⟩
    · cases decoded
  | succ room ih =>
    unfold decodePieces at decoded
    split at decoded
    · rename_i covered
      cases decoded
      exact ⟨rfl, covered, nofun⟩
    · dsimp only at decoded
      split at decoded
      · split at decoded
        · cases decoded
        · rename_i len rip positive measured
          obtain ⟨⟨rest, total⟩, further, same⟩ := Option.map_eq_some_iff.mp decoded
          cases same
          obtain ⟨chain, covered, all⟩ := ih further
          refine ⟨⟨rfl, chain⟩, covered, List.forall_mem_cons.mpr ⟨⟨measured, ?_⟩, all⟩⟩
          exact Nat.pos_of_ne_zero positive
      · cases decoded

/-! ### The displacements -/

theorem modrmLength_inside {code : List UInt8} {i immediate n rip : Nat}
    (measured : modrmLength code i immediate = (n, rip)) (positive : 0 < n) (relative : rip ≠ 0) :
    rip + 4 ≤ n := by
  obtain ⟨m, rest, extra, isRelative, -, tail, length, -, -, place⟩ := modrmLength_spec measured positive
  obtain ⟨_, _, _, _, size⟩ := Operand.tail_front tail
  cases isRelative with
  | true =>
    obtain ⟨-, rfl⟩ := size
    change rip = i + 1 at place
    omega
  | false => exact absurd place relative

theorem codeInstructionLength_inside {code : List UInt8} {n rip : Nat}
    (measured : codeInstructionLength code = (n, rip)) (positive : 0 < n) (relative : rip ≠ 0) :
    rip + 4 ≤ n := by
  unfold codeInstructionLength at measured
  dsimp only at measured
  split at measured
  · cases measured
    cases positive
  split at measured
  · cases measured
    exact absurd rfl relative
  · exact modrmLength_inside measured positive relative
  · cases measured
    exact absurd rfl relative
  · split at measured
    · exact modrmLength_inside measured positive relative
    · cases measured
      exact absurd rfl relative
  · cases measured
    exact absurd rfl relative

theorem displacement_read (m : Space) (a : UInt64) {d n : Nat} (within : d + 4 ≤ n) :
    displacement (m.read a n) d = (int32At m (a + .ofNat d)).toInt64.toUInt64 := by
  unfold displacement int32At
  rw [wordAt_read _ _ within]

theorem toInt64_toInt32_of_fits {v : Int64} (fits : fitsInt32 v = true) : v.toInt32.toInt64 = v := by
  unfold fitsInt32 at fits
  rw [Bool.and_eq_true, decide_eq_true_eq, decide_eq_true_eq, Int64.le_iff_toInt_le,
    Int64.le_iff_toInt_le, Int32.toInt_toInt64, Int32.toInt_toInt64] at fits
  change -2147483648 ≤ v.toInt ∧ v.toInt ≤ 2147483647 at fits
  rw [← Int64.toInt_inj, Int32.toInt_toInt64, Int64.toInt_toInt32]
  exact Int.bmod_eq_of_le (by omega) (by omega)

theorem relocated_addresses {m : Space} {target tramp : UInt64} {p : Piece}
    (fits : fitsInt32 (relocated m target tramp p) = true) :
    tramp + .ofNat (p.offset + p.length) +
      (relocated m target tramp p).toInt32.toUInt32.toInt32.toInt64.toUInt64 =
        addressedBy m target p := by
  have same : (relocated m target tramp p).toUInt64 =
      addressedBy m target p - (tramp + .ofNat (p.offset + p.length)) := rfl
  rw [Int32.toInt32_toUInt32, toInt64_toInt32_of_fits fits, same, add_sub_cancel]

section Relocate

variable {target tramp : UInt64}

variable {pieces : List Piece} {m : Space} {t : Nat}

theorem relocate_apart {s n : Nat} {a : UInt64} (chain : Consecutive s pieces t)
    (inside : ∀ p ∈ pieces, p.ripDisp ≠ 0 → p.ripDisp + 4 ≤ p.length) (small : t ≤ 16)
    (apart : Space.Apart a n (tramp + .ofNat s) (t - s)) :
    (relocate target tramp pieces m).1.read a n = m.read a n := by
  induction pieces generalizing s m with
  | nil => rfl
  | cons p pieces ih =>
    obtain ⟨offset, chain⟩ := chain
    have less := chain.le
    have tail : Space.Apart a n (tramp + .ofNat (s + p.length)) (t - (s + p.length)) := by
      rw [UInt64.ofNat_add, ← add_assoc]
      exact apart.inside (by omega) (by omega)
    obtain ⟨within, inside⟩ := List.forall_mem_cons.mp inside
    unfold relocate
    split
    · exact ih chain inside tail
    · rename_i relative
      dsimp only
      split
      · rw [ih chain inside tail, Space.read_write_apart]
        rw [offset, UInt64.ofNat_add, ← add_assoc]
        exact apart.inside (by rw [length_wordBytes]; omega) (by omega)
      · rfl

def RightAbout (m : Space) (target : UInt64) (p : Piece) : Prop :=
  instruction (m.read (target + .ofNat p.offset) (16 - p.offset)) = some (shapeOf p.length p.ripDisp)

variable {p : Piece}

theorem RightAbout.inside (right : RightAbout m target p) (relative : p.ripDisp ≠ 0) :
    p.ripDisp + 4 ≤ p.length := by
  obtain ⟨-, -, -, -, -, inside, -⟩ := instruction_front right
  refine inside p.ripDisp ?_
  unfold shapeOf
  rw [if_neg relative]
  rfl

theorem meaningAt_piece {m' final : Space} (right : RightAbout m target p)
    (sameTarget : m'.read (target + .ofNat p.offset) p.length = m.read (target + .ofNat p.offset) p.length)
    (bytes : final.read (tramp + .ofNat p.offset) p.length = if p.ripDisp = 0 then m.read (target + .ofNat p.offset) p.length else Lib.write (m.read (target + .ofNat p.offset) p.length) p.ripDisp (relocated m' target tramp p).toInt32.toUInt32)
    (fits : p.ripDisp ≠ 0 → fitsInt32 (relocated m' target tramp p) = true) :
    meaningAt final (tramp + .ofNat p.offset) = meaningAt m (target + .ofNat p.offset) := by
  split at bytes
  · rename_i plain
    refine meaningAt_copied right ?_ bytes
    unfold shapeOf
    rw [if_pos plain]
  · rename_i relative
    have within := right.inside relative
    have addresses := relocated_addresses (fits relative)
    refine meaningAt_relocated right (d := p.ripDisp) ?_ bytes ?_
    · unfold shapeOf
      rw [if_neg relative]
    · change tramp + .ofNat p.offset + .ofNat p.length + _ = target + .ofNat p.offset + .ofNat p.length +
        displacement (m.read (target + .ofNat p.offset) p.length) p.ripDisp
      rw [add_assoc tramp, add_assoc target, ← UInt64.ofNat_add, addresses, ← sameTarget,
        displacement_read _ _ within, addressedBy, UInt64.ofNat_add p.offset p.ripDisp, ← add_assoc target]

variable {m₁ m₂ : Space}

theorem relocate_piece (inside : p.ripDisp ≠ 0 → p.ripDisp + 4 ≤ p.length)
    (within : p.offset + p.length ≤ t) (small : t ≤ 16) (apart : Space.Apart target t tramp t)
    (done : relocate target tramp (p :: pieces) m₁ = (m₂, true)) :
    ∃ m₃ : Space, relocate target tramp pieces m₃ = (m₂, true) ∧
      m₃.read (tramp + .ofNat p.offset) p.length =
        (if p.ripDisp = 0 then m₁.read (tramp + .ofNat p.offset) p.length
        else Lib.write (m₁.read (tramp + .ofNat p.offset) p.length) p.ripDisp
          (relocated m₁ target tramp p).toInt32.toUInt32) ∧
      (p.ripDisp ≠ 0 → fitsInt32 (relocated m₁ target tramp p) = true) ∧
      m₃.read target t = m₁.read target t ∧
      ∀ n, p.offset + p.length + n ≤ t → m₃.read (tramp + .ofNat (p.offset + p.length)) n =
        m₁.read (tramp + .ofNat (p.offset + p.length)) n := by
  unfold relocate at done
  split at done
  · rename_i plain
    exact ⟨m₁, done, by rw [if_pos plain], fun relative => absurd plain relative, rfl, fun _ _ => rfl⟩
  · rename_i relative
    have four := inside relative
    dsimp only at done
    split at done
    · rename_i fits
      refine ⟨_, done, ?_, fun _ => fits, ?_, fun n fewer => ?_⟩
      · rw [if_neg relative, UInt64.ofNat_add, ← add_assoc, Space.read_write_within]
        · rfl
        · rw [length_wordBytes]
          exact four
        · omega
      · rw [Space.read_write_apart]
        exact apart.inside (by rw [length_wordBytes]; omega) (by omega)
      · rw [Space.read_write_apart]
        obtain ⟨rest, length⟩ := Nat.exists_eq_add_of_le four
        have place : tramp + .ofNat (p.offset + p.length) =
            tramp + .ofNat (p.offset + p.ripDisp) + .ofNat (4 + rest) := by
          rw [add_assoc, ← UInt64.ofNat_add, length]
          congr 2
          omega
        rw [place, length_wordBytes]
        exact Space.apart_after (by omega) (by omega)
    · cases done

theorem relocate_lists {final : Space} {s : Nat} (chain : Consecutive s pieces t)
    (right : ∀ p ∈ pieces, RightAbout m target p) (small : t ≤ 16)
    (apart : Space.Apart target t tramp t) (same : m₁.read target t = m.read target t)
    (copied : m₁.read (tramp + .ofNat s) (t - s) = m.read (target + .ofNat s) (t - s))
    (done : relocate target tramp pieces m₁ = (m₂, true))
    (kept : final.read (tramp + .ofNat s) (t - s) = m₂.read (tramp + .ofNat s) (t - s)) :
    ∃ listed, Lists m (target + .ofNat s) listed (target + .ofNat t) ∧
      Lists final (tramp + .ofNat s) listed (tramp + .ofNat t) := by
  induction pieces generalizing s m₁ with
  | nil =>
    cases chain
    exact ⟨[], .nil _, .nil _⟩
  | cons p pieces ih =>
    obtain ⟨rfl, chain⟩ := chain
    have less := chain.le
    obtain ⟨rightHere, right⟩ := List.forall_mem_cons.mp right
    have inside : ∀ q ∈ pieces, q.ripDisp ≠ 0 → q.ripDisp + 4 ≤ q.length :=
      fun q among => (right q among).inside
    have room : p.length ≤ t - p.offset := by omega
    obtain ⟨m₃, rest, first, fits, sameAt, after⟩ :=
      relocate_piece rightHere.inside less small apart done
    have behind : t - p.offset - p.length = t - (p.offset + p.length) := Nat.sub_sub ..
    -- the rest of the pieces leaves this one as it is
    have before : m₂.read (tramp + .ofNat p.offset) p.length = m₃.read (tramp + .ofNat p.offset) p.length := by
      have apartHere : Space.Apart (tramp + .ofNat p.offset) p.length
          (tramp + .ofNat (p.offset + p.length)) (t - (p.offset + p.length)) := by
        rw [UInt64.ofNat_add, ← add_assoc]
        exact Space.apart_before (by omega)
      have left : (relocate target tramp pieces m₃).1.read _ _ = m₃.read _ _ :=
        relocate_apart chain inside small apartHere
      rwa [rest] at left
    have bytes := congrArg (List.take p.length) kept
    rw [Space.read_take _ _ room, Space.read_take _ _ room, before, first] at bytes
    have copiedHere := congrArg (List.take p.length) copied
    rw [Space.read_take _ _ room, Space.read_take _ _ room] at copiedHere
    rw [copiedHere] at bytes
    have sameHere := congrArg (fun b => (b.drop p.offset).take p.length) same
    rw [Space.read_part _ _ less, Space.read_part _ _ less] at sameHere
    have here := meaningAt_piece rightHere sameHere bytes fits
    -- and the others are listed in the same way
    have keptAfter := congrArg (List.drop p.length) kept
    have copiedAfter := congrArg (List.drop p.length) copied
    rw [Space.read_drop _ _ room, Space.read_drop _ _ room, behind, add_assoc, ← UInt64.ofNat_add] at keptAfter
    rw [Space.read_drop _ _ room, Space.read_drop _ _ room, behind, add_assoc, add_assoc,
      ← UInt64.ofNat_add] at copiedAfter
    obtain ⟨listed, there, moved⟩ := ih chain right (sameAt.trans same)
      ((after _ (by omega)).trans copiedAfter) rest keptAfter
    have known := meaningAt_of_instruction rightHere
    rw [UInt64.ofNat_add, ← add_assoc] at there moved
    exact ⟨_, .cons known there, .cons (here.trans known) moved⟩

def Reaches (next address : UInt64) : Prop :=
  ∃ v : Int32, next + v.toInt64.toUInt64 = address

theorem addressedBy_congr (same : m₁.read target t = m.read target t)
    (within : p.offset + p.ripDisp + 4 ≤ t) : addressedBy m₁ target p = addressedBy m target p := by
  have word := congrArg (fun b => (b.drop (p.offset + p.ripDisp)).take 4) same
  rw [Space.read_part _ _ within, Space.read_part _ _ within] at word
  unfold addressedBy int32At
  rw [word]

theorem relocate_reaches {s : Nat} (chain : Consecutive s pieces t)
    (inside : ∀ p ∈ pieces, p.ripDisp ≠ 0 → p.ripDisp + 4 ≤ p.length) (small : t ≤ 16)
    (apart : Space.Apart target t tramp t) (same : m₁.read target t = m.read target t)
    (done : relocate target tramp pieces m₁ = (m₂, true)) :
    ∀ p ∈ pieces, p.ripDisp ≠ 0 →
      Reaches (tramp + .ofNat (p.offset + p.length)) (addressedBy m target p) := by
  induction pieces generalizing s m₁ with
  | nil => exact nofun
  | cons p pieces ih =>
    obtain ⟨rfl, chain⟩ := chain
    have less := chain.le
    obtain ⟨here, inside⟩ := List.forall_mem_cons.mp inside
    obtain ⟨m₃, rest, -, fits, sameAt, -⟩ := relocate_piece here less small apart done
    refine List.forall_mem_cons.mpr ⟨fun relative => ?_, ih chain inside (sameAt.trans same) rest⟩
    have within := here relative
    refine ⟨(relocated m₁ target tramp p).toInt32, ?_⟩
    have addresses := relocated_addresses (fits relative)
    rw [Int32.toInt32_toUInt32] at addresses
    rw [addresses, addressedBy_congr same (by omega)]

end Relocate

end EdvrPatch.CodeHook
