import EdvrPatch.CodeHook.Relocation

/-! The trampoline of the code hook does what the displaced instructions did, a failed
installation leaves the target alone, and a removal puts back what was displaced. -/
namespace EdvrPatch.CodeHook

open Lib X64

/-! ### The installation -/

section Build

variable {hook : CodeHook} {m : Space} {target tramp : UInt64} {pieces : List Piece} {t : Nat}

theorem length_jumpBack (resume : UInt64) : (jumpBack resume).length = 14 := rfl

theorem build_apart {n : Nat} {a : UInt64} (chain : Consecutive 0 pieces t)
    (inside : ∀ p ∈ pieces, p.ripDisp ≠ 0 → p.ripDisp + 4 ≤ p.length) (small : t ≤ 16)
    (apart : Space.Apart a n tramp (t + 14)) :
    (build hook m target tramp pieces t).memory.read a n = m.read a n := by
  have block : Space.Apart a n (tramp + .ofNat 0) (t - 0) := apart.inside (by omega) (by omega)
  have copied : (m.write tramp (m.read target t)).read a n = m.read a n :=
    Space.read_write_apart (apart.mono (Nat.le_refl n) (by rw [Space.length_read]; omega))
  have moved : (relocate target tramp pieces (m.write tramp (m.read target t))).1.read a n =
      (m.write tramp (m.read target t)).read a n := relocate_apart chain inside small block
  unfold build
  dsimp only
  split
  · rename_i m₂ refused
    rw [refused] at moved
    exact moved.trans copied
  · rename_i m₂ done
    rw [done] at moved
    rw [Space.read_write_apart]
    · exact moved.trans copied
    · rw [length_jumpBack]
      exact apart.inside (by omega) (by omega)

theorem build_done (done : (build hook m target tramp pieces t).result = true) :
    ∃ m₂, relocate target tramp pieces (m.write tramp (m.read target t)) = (m₂, true) ∧
      build hook m target tramp pieces t =
        { memory := m₂.write (tramp + .ofNat t) (jumpBack (target + .ofNat t))
          hook := { hook with
            original := (m₂.write (tramp + .ofNat t) (jumpBack (target + .ofNat t))).read target t ++
              hook.original.drop t }
          result := true } := by
  unfold build at done ⊢
  dsimp only at done ⊢
  split at done
  · cases done
  · rename_i m₂ moved
    exact ⟨m₂, moved, rfl⟩

end Build

section Install

variable {hook : CodeHook} {m : Space} {target replacement : UInt64} {answers : Answers}

/-- What an installation has decoded, and the block that it was given for the trampoline. -/
structure Planned (m : Space) (target : UInt64) (answers : Answers) (pieces : List Piece) (t : Nat)
    (tramp : UInt64) : Prop where
  decoded : decodePieces m target answers.readable 8 0 = some (pieces, t)
  small : t ≤ 16
  block : answers.trampoline = some tramp

namespace Planned

variable {pieces : List Piece} {t : Nat} {tramp : UInt64}

theorem chain (plan : Planned m target answers pieces t tramp) : Consecutive 0 pieces t :=
  (decodePieces_spec plan.decoded).1

theorem inside (plan : Planned m target answers pieces t tramp) :
    ∀ p ∈ pieces, p.ripDisp ≠ 0 → p.ripDisp + 4 ≤ p.length := by
  intro p among
  obtain ⟨measured, positive⟩ := (decodePieces_spec plan.decoded).2.2 p among
  exact codeInstructionLength_inside measured positive

end Planned

def OutsideBlock (n : Nat) (m : Space) (target : UInt64) (answers : Answers) : Prop :=
  ∀ pieces t tramp, Planned m target answers pieces t tramp → Space.Apart target n tramp (t + 14)

/-- How an installation ends: it has written nothing, it has written in the block alone, or
it has published the patch. -/
inductive Ends (hook : CodeHook) (m : Space) (target replacement : UInt64) (answers : Answers) :
    Outcome → Prop
  | early : Ends hook m target replacement answers { memory := m, hook, result := false }
  | faulted {pieces : List Piece} {t : Nat} {tramp : UInt64} (block : Space)
      (plan : Planned m target answers pieces t tramp) :
      Ends hook m target replacement answers
        { memory := Answers.merge block tramp (t + 14) m, hook, result := false }
  | refused {pieces : List Piece} {t : Nat} {tramp : UInt64}
      (plan : Planned m target answers pieces t tramp) :
      Ends hook m target replacement answers
        { build hook m target tramp pieces t with result := false }
  | published {pieces : List Piece} {t : Nat} {tramp : UInt64}
      (plan : Planned m target answers pieces t tramp)
      (built : (build hook m target tramp pieces t).result = true) :
      Ends hook m target replacement answers
        { memory := patch (build hook m target tramp pieces t).memory target replacement
          hook := { (build hook m target tramp pieces t).hook with
            target, replacement, trampoline := tramp, stolen := t, installed := true }
          result := true }

theorem install_ends : Ends hook m target replacement answers (install hook m target replacement answers) := by
  unfold install
  dsimp only
  split
  · exact .early
  split
  · exact .early
  split
  · exact .early
  rename_i pieces t decoded
  split
  · exact .early
  rename_i small
  split
  · exact .early
  rename_i tramp block
  have plan : Planned m target answers pieces t tramp := ⟨decoded, Nat.le_of_not_lt small, block⟩
  split
  · exact .faulted _ plan
  split
  · exact .refused plan
  rename_i built
  split
  · exact .refused plan
  split
  · exact .refused plan
  split
  · exact .refused plan
  split
  · exact .refused plan
  split
  · exact .refused plan
  · exact .published plan (by simpa using built)

theorem install_failed {n : Nat} (outside : OutsideBlock n m target answers)
    (failed : (install hook m target replacement answers).result = false) :
    (install hook m target replacement answers).memory.read target n = m.read target n := by
  have ends : Ends hook m target replacement answers (install hook m target replacement answers) :=
    install_ends
  generalize install hook m target replacement answers = out at ends failed
  cases ends with
  | early => rfl
  | faulted block plan =>
    have apart := outside _ _ _ plan
    refine Space.read_congr fun i inside => ?_
    exact if_neg (Nat.not_lt.mpr (apart i inside))
  | refused plan => exact build_apart plan.chain plan.inside plan.small (outside _ _ _ plan)
  | published plan built => cases failed

theorem indirectJump_jumpBack {a resume : UInt64} (holds : m.read a 14 = jumpBack resume) :
    indirectJump m a = some resume := by
  have opcode : m.read a 2 = [0xFF, 0x25] := by
    rw [← Space.read_take m a (show 2 ≤ 14 by decide), holds]
    rfl
  have zero : m.read (a + 2) 4 = [0, 0, 0, 0] := by
    change m.read (a + .ofNat 2) 4 = _
    rw [← Space.read_part m a (show 2 + 4 ≤ 14 by decide), holds]
    rfl
  have pointer : m.read (a + 6) 8 = quadBytes resume := by
    change m.read (a + .ofNat 6) 8 = _
    rw [← Space.read_part m a (show 6 + 8 ≤ 14 by decide), holds]
    rfl
  have none_ : displacement [0, 0, 0, 0] 0 = 0 := by decide
  unfold indirectJump
  rw [if_pos opcode, zero, none_, add_zero, pointer, quadOf_quadBytes]

theorem length_patchBytes (m : Space) (target replacement : UInt64) :
    (0xE9 :: (wordBytes (displacementTo replacement target).toInt32.toUInt32 ++
      (m.read target 8).drop kCodeHookPatchBytes)).length = 8 := by
  simp [kCodeHookPatchBytes]

theorem patch_apart {n : Nat} {a : UInt64} (apart : Space.Apart a n target 8) :
    (patch m target replacement).read a n = m.read a n :=
  Space.read_write_apart (by rw [length_patchBytes]; exact apart)

theorem patch_read : (patch m target replacement).read target 8 =
    0xE9 :: (wordBytes (displacementTo replacement target).toInt32.toUInt32 ++
      (m.read target 8).drop kCodeHookPatchBytes) := by
  have length := length_patchBytes m target replacement
  have written : (patch m target replacement).read target _ = _ :=
    Space.read_write m target (by rw [length]; decide)
  rwa [length] at written

section Published

variable {pieces : List Piece} {t : Nat} {tramp : UInt64}

theorem published_trampoline (plan : Planned m target answers pieces t tramp)
    (built : (build hook m target tramp pieces t).result = true)
    (right : ∀ p ∈ pieces, RightAbout m target p) (fresh : Space.Apart target (max t 8) tramp (t + 14)) :
    ∃ listed, Lists m target listed (target + .ofNat t) ∧
      Lists (patch (build hook m target tramp pieces t).memory target replacement) tramp listed
        (tramp + .ofNat t) ∧
      indirectJump (patch (build hook m target tramp pieces t).memory target replacement)
        (tramp + .ofNat t) = some (target + .ofNat t) := by
  obtain ⟨m₂, done, is⟩ := build_done built
  have small := plan.small
  have apartWord : Space.Apart tramp (t + 14) target 8 :=
    (fresh.symm (by omega)).mono (Nat.le_refl _) (Nat.le_max_right _ _)
  have jumpBehind : Space.Apart target (max t 8) (tramp + .ofNat t) 14 := fresh.inside (by omega) (by omega)
  have apartJump : Space.Apart (tramp + .ofNat t) 14 target 8 :=
    (jumpBehind.symm (by omega)).mono (Nat.le_refl _) (Nat.le_max_right _ _)
  have apartCode : Space.Apart target t tramp t := fresh.mono (Nat.le_max_left _ _) (by omega)
  have copied : (m.write tramp (m.read target t)).read tramp t = m.read target t := by
    have written : (m.write tramp (m.read target t)).read tramp (m.read target t).length = m.read target t :=
      Space.read_write m tramp (by rw [Space.length_read]; omega)
    rwa [Space.length_read] at written
  have kept : (patch (build hook m target tramp pieces t).memory target replacement).read tramp t =
      m₂.read tramp t := by
    rw [patch_apart (apartWord.mono (by omega) (Nat.le_refl _)), is, Space.read_write_apart]
    exact Space.apart_before (by rw [length_jumpBack]; omega)
  have zero : ∀ a : UInt64, a + .ofNat 0 = a := fun a => add_zero a
  have lists : ∃ listed, Lists m (target + .ofNat 0) listed (target + .ofNat t) ∧
      Lists (patch (build hook m target tramp pieces t).memory target replacement) (tramp + .ofNat 0) listed
        (tramp + .ofNat t) := relocate_lists plan.chain right small apartCode
    (Space.read_write_apart (by rw [Space.length_read]; exact apartCode)) (by rw [zero, zero]; exact copied)
    done (by rw [zero]; exact kept)
  rw [zero, zero] at lists
  obtain ⟨listed, there, moved⟩ := lists
  refine ⟨listed, there, moved, indirectJump_jumpBack ?_⟩
  rw [patch_apart apartJump, is]
  exact Space.read_write _ _ (by rw [length_jumpBack]; decide)

def publishedHook (hook : CodeHook) (m : Space) (target replacement tramp : UInt64)
    (pieces : List Piece) (t : Nat) : CodeHook :=
  { (build hook m target tramp pieces t).hook with
    target, replacement, trampoline := tramp, stolen := t, installed := true }

theorem published_original (plan : Planned m target answers pieces t tramp)
    (built : (build hook m target tramp pieces t).result = true)
    (fresh : Space.Apart target (max t 8) tramp (t + 14)) {k : Nat} (less : k ≤ t) :
    (publishedHook hook m target replacement tramp pieces t).original.take k = m.read target k := by
  obtain ⟨m₂, -, is⟩ := build_done built
  have same : (build hook m target tramp pieces t).memory.read target t = m.read target t :=
    build_apart plan.chain plan.inside plan.small (fresh.mono (Nat.le_max_left t 8) (Nat.le_refl _))
  rw [is] at same
  unfold publishedHook
  rw [is]
  rw [same, List.take_append_of_le_length (by rw [Space.length_read]; exact less),
    Space.read_take _ _ less]

theorem ours_of_patch {m' : Space}
    (kept : m'.read target 5 = (patch m target replacement).read target 5) (h : CodeHook)
    (sameTarget : h.target = target) (sameReplacement : h.replacement = replacement) :
    ours h m' = true := by
  have five : m'.read target 5 =
      0xE9 :: wordBytes (displacementTo replacement target).toInt32.toUInt32 := by
    rw [kept, ← Space.read_take _ _ (show 5 ≤ 8 by decide), patch_read]
    rfl
  have opcode : m'.read target 1 = [0xE9] := by
    rw [← Space.read_take _ _ (show 1 ≤ 5 by decide), five]
    rfl
  have rel : m'.read (target + 1) 4 = wordBytes (displacementTo replacement target).toInt32.toUInt32 := by
    change m'.read (target + .ofNat 1) 4 = _
    rw [← Space.read_part m' target (show 1 + 4 ≤ 5 by decide), five]
    rfl
  have word : wordAt (m'.read (target + 1) 4) 0 =
      some (displacementTo replacement target).toInt32.toUInt32 :=
    wordAt_of_drop (by rw [rel, List.drop_zero, List.append_nil])
  unfold ours int32At
  rw [sameTarget, sameReplacement, opcode, word, Option.getD_some, Int32.toInt32_toUInt32]
  simp

theorem published_reaches (plan : Planned m target answers pieces t tramp)
    (built : (build hook m target tramp pieces t).result = true)
    (fresh : Space.Apart target (max t 8) tramp (t + 14)) :
    ∀ p ∈ pieces, p.ripDisp ≠ 0 →
      Reaches (tramp + .ofNat (p.offset + p.length)) (addressedBy m target p) := by
  obtain ⟨m₂, done, -⟩ := build_done built
  have apartCode : Space.Apart target t tramp t := fresh.mono (Nat.le_max_left _ _) (by omega)
  exact relocate_reaches plan.chain plan.inside plan.small apartCode
    (Space.read_write_apart (by rw [Space.length_read]; exact apartCode)) done

end Published

end Install

/-! ### The removal -/

variable {h : CodeHook} {m : Space}

theorem length_restored {read : Bool} (long : min h.stolen 8 ≤ h.original.length) :
    (restored h m read).length = 8 := by
  unfold restored
  split <;> split <;> simp <;> omega

theorem uninstall_restores {removal : Removal} (installed : h.installed = true)
    (long : min h.stolen 8 ≤ h.original.length) (isOurs : ours h m = true)
    (allowed : (removal.checked && removal.read && removal.writable && removal.stored) = true) :
    (uninstall h m removal).1.read h.target 8 =
      h.original.take (min h.stolen 8) ++ (m.read h.target 8).drop (min h.stolen 8) := by
  simp only [Bool.and_eq_true] at allowed
  obtain ⟨⟨⟨checked, read⟩, writable⟩, stored⟩ := allowed
  have length : (restored h m true).length = 8 := length_restored long
  have written : (m.write h.target (restored h m true)).read h.target _ = restored h m true :=
    Space.read_write m h.target (by rw [length]; decide)
  rw [length] at written
  have smaller : (if h.stolen < 8 then h.stolen else 8) = min h.stolen 8 := by
    split <;> omega
  unfold uninstall
  rw [installed, checked, isOurs, writable, stored, read]
  refine written.trans ?_
  unfold restored
  rw [smaller, if_pos rfl]

theorem uninstall_refused {removal : Removal}
    (refused : (removal.checked && removal.writable && removal.stored) = false) :
    (uninstall h m removal).1 = m := by
  unfold uninstall
  split
  · rfl
  · dsimp only
    split
    · rename_i isOurs
      rw [Bool.and_eq_true] at isOurs
      rw [isOurs.1, Bool.true_and] at refused
      rw [refused]
      rfl
    · rfl

/-! ### The code hook -/

/-- The decoder is right about the instructions that the installation would move. -/
def DecoderRight (m : Space) (target : UInt64) (answers : Answers) : Prop :=
  ∀ pieces t, decodePieces m target answers.readable 8 0 = some (pieces, t) →
    ∀ p ∈ pieces, RightAbout m target p

/-- The block for the trampoline is fresh memory, apart from the bytes at the target. -/
def FreshBlock (m : Space) (target : UInt64) (answers : Answers) : Prop :=
  ∀ pieces t tramp, Planned m target answers pieces t tramp →
    Space.Apart target (max t 8) tramp (t + 14)

/-- The trampoline of a hook does what the target did, and goes on behind what was moved. -/
structure Equivalent (m : Space) (target : UInt64) (out : Outcome) : Prop where
  covers : kCodeHookPatchBytes ≤ out.hook.stolen
  lists : ∃ listed, Lists m target listed (target + .ofNat out.hook.stolen) ∧
    Lists out.memory out.hook.trampoline listed (out.hook.trampoline + .ofNat out.hook.stolen)
  resumes : indirectJump out.memory (out.hook.trampoline + .ofNat out.hook.stolen) =
    some (target + .ofNat out.hook.stolen)

/-- What a removal does with the word at the target while the patch is there. -/
structure Restores (m : Space) (target : UInt64) (out : Outcome) (m' : Space) (removal : Removal) : Prop where
  allowed : (removal.checked && removal.read && removal.writable && removal.stored) = true →
    (uninstall out.hook m' removal).1.read target 8 =
      m.read target (min out.hook.stolen 8) ++ (m'.read target 8).drop (min out.hook.stolen 8)
  untouched : (removal.checked && removal.read && removal.writable && removal.stored) = true →
    m'.read target 8 = out.memory.read target 8 →
      (uninstall out.hook m' removal).1.read target 8 = m.read target 8
  refused : (removal.checked && removal.writable && removal.stored) = false →
    (uninstall out.hook m' removal).1 = m'

theorem drop_patch {B : Space} {target : UInt64} (replacement : UInt64) {k : Nat}
    (same : B.read target 8 = m.read target 8) (covers : kCodeHookPatchBytes ≤ k) :
    ((patch B target replacement).read target 8).drop k = (m.read target 8).drop k := by
  obtain ⟨j, rfl⟩ := Nat.exists_eq_add_of_le covers
  have front : (0xE9 :: wordBytes (displacementTo replacement target).toInt32.toUInt32).length =
      kCodeHookPatchBytes := rfl
  rw [patch_read, same, ← List.cons_append, ← front, List.drop_length_add_append, List.drop_drop]

theorem published_restores {hook : CodeHook} {target replacement tramp : UInt64}
    {answers : Answers} {pieces : List Piece} {t : Nat}
    (plan : Planned m target answers pieces t tramp)
    (built : (build hook m target tramp pieces t).result = true)
    (fresh : Space.Apart target (max t 8) tramp (t + 14)) {m' : Space} (removal : Removal)
    (kept : m'.read target 5 = (patch (build hook m target tramp pieces t).memory target replacement).read target 5) :
    Restores m target
      { memory := patch (build hook m target tramp pieces t).memory target replacement
        hook := publishedHook hook m target replacement tramp pieces t
        result := true } m' removal := by
  have covers := (decodePieces_spec plan.decoded).2.1
  have original : (publishedHook hook m target replacement tramp pieces t).original.take (min t 8) =
      m.read target (min t 8) := published_original plan built fresh (Nat.min_le_left t 8)
  have long : min t 8 ≤ (publishedHook hook m target replacement tramp pieces t).original.length := by
    have length := congrArg List.length original
    rw [List.length_take, Space.length_read] at length
    omega
  have back := fun allowed => @uninstall_restores (publishedHook hook m target replacement tramp pieces t)
    m' removal rfl long (ours_of_patch kept _ rfl rfl) allowed
  refine ⟨fun allowed => ?_, fun allowed whole => ?_, uninstall_refused⟩
  · exact (back allowed).trans (congrArg (· ++ _) original)
  · refine (back allowed).trans ?_
    have eight : (build hook m target tramp pieces t).memory.read target 8 = m.read target 8 :=
      build_apart plan.chain plan.inside plan.small (fresh.mono (Nat.le_max_right t 8) (Nat.le_refl _))
    have least : kCodeHookPatchBytes ≤ min t 8 := Nat.le_min.mpr ⟨covers, by decide⟩
    have tail := drop_patch replacement eight least
    have front : (m.read target 8).take (min t 8) = m.read target (min t 8) :=
      Space.read_take _ _ (Nat.min_le_right t 8)
    change (publishedHook hook m target replacement tramp pieces t).original.take (min t 8) ++
      (m'.read target 8).drop (min t 8) = _
    rw [original, whole, ← front]
    exact (congrArg (_ ++ ·) tail).trans (List.take_append_drop _ _)

theorem codeHook_equivalent (hook : CodeHook) {m : Space} {target : UInt64} (replacement : UInt64)
    {answers : Answers} (right : DecoderRight m target answers) (fresh : FreshBlock m target answers) :
    let out := install hook m target replacement answers
    (out.result = true → Equivalent m target out) ∧
    (∀ pieces t tramp, Planned m target answers pieces t tramp → ∀ p ∈ pieces, p.ripDisp ≠ 0 →
      ¬Reaches (tramp + .ofNat (p.offset + p.length)) (addressedBy m target p) → out.result = false) ∧
    (out.result = false → ∀ n, OutsideBlock n m target answers →
      out.memory.read target n = m.read target n) ∧
    (out.result = true → ∀ m' removal, m'.read target 5 = out.memory.read target 5 →
      Restores m target out m' removal) := by
  intro out
  have ends : Ends hook m target replacement answers out := install_ends
  refine ⟨fun succeeded => ?_, fun pieces t tramp plan p among relative far => ?_,
    fun failed n outside => install_failed outside failed, fun succeeded m' removal kept => ?_⟩
  · generalize out = out at ends succeeded ⊢
    cases ends with
    | early => cases succeeded
    | faulted block plan => cases succeeded
    | refused plan => cases succeeded
    | published plan built =>
      obtain ⟨listed, there, moved, resumes⟩ :=
        published_trampoline plan built (right _ _ plan.decoded) (fresh _ _ _ plan)
      exact ⟨(decodePieces_spec plan.decoded).2.1, ⟨listed, there, moved⟩, resumes⟩
  · generalize out = out at ends ⊢
    cases ends with
    | early => rfl
    | faulted block plan => rfl
    | refused plan => rfl
    | published plan' built =>
      have same := plan'.decoded.symm.trans plan.decoded
      have block := plan'.block.symm.trans plan.block
      cases same
      cases block
      exact absurd (published_reaches plan' built (fresh _ _ _ plan') p among relative) far
  · generalize out = out at ends succeeded kept ⊢
    cases ends with
    | early => cases succeeded
    | faulted block plan => cases succeeded
    | refused plan => cases succeeded
    | published plan built => exact published_restores plan built (fresh _ _ _ plan) removal kept

section Sample

def sampleCode : Space := fun a =>
  ([0x48, 0x83, 0xEC, 0x28, 0x8B, 0x05, 0x10, 0x00, 0x00, 0x00] : Bytes)[(a - 0x10000).toNat]?.getD 0x90

def sampleAnswers : Answers := { trampoline := some 0x20000 }

theorem sampleDecoded : decodePieces sampleCode 0x10000 sampleAnswers.readable 8 0 =
    some ([{ offset := 0, length := 4, ripDisp := 0 }, { offset := 4, length := 6, ripDisp := 2 }], 10) := by
  decide +kernel

theorem sampleRight : DecoderRight sampleCode 0x10000 sampleAnswers := by
  intro pieces t decoded
  cases sampleDecoded.symm.trans decoded
  unfold RightAbout
  decide +kernel

theorem sampleFresh : FreshBlock sampleCode 0x10000 sampleAnswers := by
  intro pieces t tramp plan
  cases sampleDecoded.symm.trans plan.decoded
  cases plan.block
  unfold Space.Apart
  decide +kernel

theorem codeHook_equivalent_sample :
    Equivalent sampleCode 0x10000 (install {} sampleCode 0x10000 0x30000 sampleAnswers) :=
  (codeHook_equivalent {} 0x30000 sampleRight sampleFresh).1 (by decide +kernel)

/-- The patch stays where the system does not make the page writable again. -/
theorem uninstall_keeps_patch :
    ¬∀ (hook : CodeHook) (m : Space) (target replacement : UInt64) (answers : Answers) (removal : Removal),
      DecoderRight m target answers → FreshBlock m target answers →
      (install hook m target replacement answers).result = true →
      (uninstall (install hook m target replacement answers).hook
        (install hook m target replacement answers).memory removal).1.read target 8 = m.read target 8 := by
  intro restores
  have back := restores {} sampleCode 0x10000 0x30000 sampleAnswers { writable := false }
    sampleRight sampleFresh (by decide +kernel)
  revert back
  decide +kernel

end Sample

end EdvrPatch.CodeHook
