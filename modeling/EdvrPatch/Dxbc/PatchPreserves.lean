import EdvrPatch.Dxbc.Instructions

/-! A patched program is the program it was made from with instructions added. -/
namespace EdvrPatch.Dxbc

open Lib

/-- An instruction of the program and what the patch puts around it. The tail stands
right before the instruction. -/
structure Block where
  ahead : List Instruction := []
  tail : List Instruction := []
  original : Instruction
  behind : List Instruction := []
  deriving DecidableEq, Repr

def Block.instructions (b : Block) : List Instruction :=
  b.ahead ++ b.tail ++ [b.original] ++ b.behind

def Block.declared (b : Block) : List Instruction :=
  b.ahead ++ b.behind

/-- The temporary that an instruction writes: its first operand is where it writes to. -/
def writtenTemp (ins : Instruction) : Option UInt32 :=
  if operandType (ins.word 1) = 0 then some (ins.word 2) else none

def tempsDeclared (program : List Instruction) : UInt32 :=
  match program.find? fun ins => ins.opcode = kOpDclTemps with
  | some ins => ins.word 1
  | none => 0

/-- How a patched program `u` comes from `t`: both are whole instructions from end to end,
the old ones stand in the new program in order, each as `retouch` has it, the new
declarations are `declared`, and `tail` stands before every `ret` and nowhere else. -/
structure Preserves (t u : List UInt32) (retouch : Instruction → Instruction)
    (program : List Instruction) (declared tail : List Instruction) (blocks : List Block) :
    Prop where
  reads : instructionsOf t = .ok program
  walks : instructionsOf u = .ok (blocks.flatMap Block.instructions)
  header : u.getD 0 0 = t.getD 0 0
  length : u.getD 1 0 = .ofNat u.length
  kept : blocks.map Block.original = program.map retouch
  declarations : (blocks.flatMap Block.declared).Perm declared
  tails : ∀ b ∈ blocks, b.tail = if b.original.opcode = kOpRet then tail else []
  temps : ∀ ins ∈ tail, ∀ n, writtenTemp ins = some n → tempsDeclared program ≤ n

theorem whole_plain {token : UInt32} {rest : List UInt32} (n : Nat)
    (plain : token &&& 0x7ff ≠ 53 ∧ ((token >>> 24) &&& 127).toNat = n)
    (size : n = rest.length + 1) : Whole (token :: rest) := by
  refine ⟨Nat.succ_pos _, fun other => ?_⟩
  unfold instructionLength namedLength
  rw [List.drop_zero, List.cons_append]
  dsimp only
  rw [if_neg plain.1, plain.2, size]
  refine bind_eq_ok.mpr ⟨_, rfl, if_neg ?_⟩
  rw [List.length_cons, List.length_append]
  omega

theorem whole_size {token : UInt32} {rest : List UInt32} (plain : token &&& 0x7ff ≠ 53)
    (whole : Whole (token :: rest)) : ((token >>> 24) &&& 127).toNat = rest.length + 1 := by
  have measured := whole.length []
  unfold instructionLength namedLength at measured
  rw [List.append_nil, List.drop_zero] at measured
  dsimp only at measured
  rw [if_neg plain] at measured
  obtain ⟨_, same, measured⟩ := bind_eq_ok.mp measured
  cases same
  split at measured
  · cases measured
  · exact Except.ok.inj measured

section

variable {α β : Type} {l : List α} {key : α → Nat} {n : Nat}

theorem flatMap_nowhere {x : List β} (absent : n ∉ l.map key) :
    l.flatMap (fun a => if key a = n then x else []) = [] := by
  rw [List.flatMap_eq_nil_iff]
  intro a member
  rw [if_neg]
  rintro rfl
  exact absent (List.mem_map_of_mem member)

theorem flatMap_once {x : List β} (once : (l.map key).Nodup) (member : n ∈ l.map key) :
    l.flatMap (fun a => if key a = n then x else []) = x := by
  induction l with
  | nil => cases member
  | cons a l ih =>
    rw [List.map_cons, List.nodup_cons] at once
    rw [List.flatMap_cons]
    rcases List.mem_cons.mp member with here | later
    · rw [if_pos here.symm, flatMap_nowhere (by rw [here]; exact once.1), List.append_nil]
    · have other : key a ≠ n := by
        rintro rfl
        exact once.1 later
      rw [if_neg other, ih once.2 later, List.nil_append]

end

section

variable {at_ : Nat} {l : List Instruction} (wholes : ∀ ins ∈ l, Whole ins)

include wholes

theorem placed_starts_nodup : ((placed at_ l).map Prod.fst).Nodup := by
  induction l generalizing at_ with
  | nil => exact .nil
  | cons ins rest ih =>
    have some_ := (wholes ins List.mem_cons_self).some_
    refine List.nodup_cons.mpr ⟨fun member => ?_,
      ih fun other inside => wholes other (List.mem_cons_of_mem ins inside)⟩
    obtain ⟨p, inside, same⟩ := List.mem_map.mp member
    have later := le_of_mem_placed inside
    omega

theorem placed_ends_nodup :
    ((placed at_ l).map fun p => p.1 + p.2.length).Nodup := by
  induction l generalizing at_ with
  | nil => exact .nil
  | cons ins rest ih =>
    have later : ∀ other ∈ rest, Whole other := fun other inside =>
      wholes other (List.mem_cons_of_mem ins inside)
    refine List.nodup_cons.mpr ⟨fun member => ?_, ih later⟩
    obtain ⟨p, inside, same⟩ := List.mem_map.mp member
    dsimp only at same
    have behind := le_of_mem_placed inside
    have listed : p.2 ∈ rest := by
      rw [← placed_map_snd (at_ + ins.length) rest]
      exact List.mem_map_of_mem inside
    have some_ := (later p.2 listed).some_
    omega

end

variable {σ : Type} {at_ : Nat} {l : List Instruction}

theorem foldPlaced_emits {step : σ → Nat → Instruction → σ} {out : σ → List UInt32}
    {adds : Nat × Instruction → List UInt32}
    (emits : ∀ s at_ ins, out (step s at_ ins) = out s ++ adds (at_, ins)) {s s' : σ}
    (folded : foldPlaced (fun s at_ ins => .ok (step s at_ ins)) at_ s l = .ok s') :
    out s' = out s ++ (placed at_ l).flatMap adds := by
  induction l generalizing at_ s with
  | nil =>
    cases folded
    simp [placed]
  | cons ins rest ih =>
    rw [ih folded, emits, placed, List.flatMap_cons, List.append_assoc]

theorem foldPlaced_inv {step : σ → Nat → Instruction → Result σ}
    {I : List (Nat × Instruction) → σ → Prop} {s s' : σ} (first : I [] s)
    (keeps : ∀ done p s s', p ∈ placed at_ l → I done s → step s p.1 p.2 = .ok s' → I (done ++ [p]) s')
    (folded : foldPlaced step at_ s l = .ok s') : I (placed at_ l) s' := by
  unfold foldPlaced at folded
  generalize placed at_ l = turns at keeps folded
  induction turns using List.reverseRecOn generalizing s' with
  | nil =>
    cases folded
    exact first
  | append_singleton done p ih =>
    rw [List.foldlM_append] at folded
    obtain ⟨last, before, folded⟩ := bind_eq_ok.mp folded
    obtain ⟨next, stepped, same⟩ := bind_eq_ok.mp folded
    cases same
    refine keeps done p last _ (by simp) (ih (fun done p s s' member => ?_) before) stepped
    exact keeps done p s s' (List.mem_append_left _ member)

theorem layout_of_drop {t : List UInt32} (rest : t.drop 2 = l.flatten) (some_ : l ≠ [])
    (wholes : ∀ ins ∈ l, Whole ins) : t = [t.getD 0 0, t.getD 1 0] ++ l.flatten := by
  match t, l with
  | a :: b :: rest', l => simp [← rest]
  | [], ins :: l | [_], ins :: l =>
    have positive := (wholes ins List.mem_cons_self).some_
    have short := congrArg List.length rest
    simp at short
    omega

theorem programWords_programBytes (a : UInt32) (l : List UInt32) :
    programWords (programBytes (a :: 0 :: l)) = a :: .ofNat (l.length + 2) :: l := by
  unfold programWords programBytes
  rw [wordsOf_bytesOf]
  rfl

theorem instructionsOf_programBytes {a : UInt32} (wholes : ∀ ins ∈ l, Whole ins) :
    instructionsOf (programWords (programBytes (a :: 0 :: l.flatten))) = .ok l := by
  rw [programWords_programBytes]
  exact instructionsOf_of_whole rfl wholes

theorem walk_emits {step : σ → Nat → Instruction → σ} (out : σ → List UInt32)
    {block : Nat × Instruction → Block}
    (emits : ∀ s at_ ins, out (step s at_ ins) = out s ++ (block (at_, ins)).instructions.flatten)
    {t : List UInt32} {a b : UInt32} (layout : t = [a, b] ++ l.flatten)
    (wholes : ∀ ins ∈ l, Whole ins) {s s' : σ}
    (walked : walk (fun _ => t) (fun s at_ ins => .ok (step s at_ ins)) t.length 2 s = .ok s') :
    out s' = out s ++ ((placed 2 l).map block).flatMap fun b => b.instructions.flatten := by
  have enough : l.flatten.length ≤ t.length := by
    rw [layout, List.length_append]
    omega
  have folded : walk (fun _ => t) (fun s at_ ins => .ok (step s at_ ins)) t.length 2 s =
      foldPlaced (fun s at_ ins => .ok (step s at_ ins)) 2 s l :=
    walk_of_whole layout wholes enough s
  rw [List.flatMap_map]
  exact foldPlaced_emits emits (folded.symm.trans walked)

section

variable {t : List UInt32} {b : UInt32} {program : List Instruction} {blocks : List Block}
  {words : List UInt32} {retouch : Instruction → Instruction} {declared tail : List Instruction}

theorem preserves_of_blocks (layout : t = [t.getD 0 0, b] ++ program.flatten)
    (wholes : ∀ ins ∈ program, Whole ins)
    (emitted : words = [t.getD 0 0, 0] ++ blocks.flatMap fun b => b.instructions.flatten)
    (blocks_whole : ∀ b ∈ blocks, ∀ ins ∈ b.instructions, Whole ins)
    (kept : blocks.map Block.original = program.map retouch)
    (declarations : (blocks.flatMap Block.declared).Perm declared)
    (tails : ∀ b ∈ blocks, b.tail = if b.original.opcode = kOpRet then tail else [])
    (temps : ∀ ins ∈ tail, ∀ n, writtenTemp ins = some n → tempsDeclared program ≤ n) :
    Preserves t (programWords (programBytes words)) retouch program declared tail blocks := by
  have flat (blocks : List Block) : (blocks.flatMap fun b => b.instructions.flatten) =
      (blocks.flatMap Block.instructions).flatten := by
    induction blocks with
    | nil => rfl
    | cons b rest ih => rw [List.flatMap_cons, List.flatMap_cons, List.flatten_append, ih]
  rw [flat] at emitted
  subst emitted
  refine ⟨instructionsOf_of_whole layout wholes, instructionsOf_programBytes ?_, ?_, ?_, kept,
    declarations, tails, temps⟩
  · intro ins member
    obtain ⟨b, inside, member⟩ := List.mem_flatMap.mp member
    exact blocks_whole b inside ins member
  · rw [List.cons_append, List.cons_append, List.nil_append, programWords_programBytes]
    rfl
  · rw [List.cons_append, List.cons_append, List.nil_append, programWords_programBytes]
    rfl

end

/-! The vertex shader. -/

variable {slotRegister : UInt32}

theorem scanVs_ends {s s' : VsScan} {ins : Instruction}
    (scanned : scanVs slotRegister s at_ ins = .ok s') :
    s'.lastOutputEnd = s.lastOutputEnd ∨ s'.lastOutputEnd = at_ + ins.length := by
  obtain ⟨_, -, scanned⟩ := bind_eq_ok.mp scanned
  obtain ⟨-, scanned⟩ := check_eq_ok.mp scanned
  cases scanned
  grind

def vsBlock (slotRegister : UInt32) (lastOutputEnd : Nat) (p : Nat × Instruction) : Block where
  tail := if p.2.opcode = kOpRet then [vsMove slotRegister] else []
  original := p.2
  behind := if p.1 + p.2.length = lastOutputEnd then [vsDeclaration slotRegister] else []

theorem emitVs_eq (slotRegister : UInt32) (lastOutputEnd : Nat) (out : List UInt32) (at_ : Nat)
    (ins : Instruction) :
    emitVs slotRegister lastOutputEnd out at_ ins =
      out ++ (vsBlock slotRegister lastOutputEnd (at_, ins)).instructions.flatten := by
  unfold emitVs vsBlock Block.instructions
  split <;> split <;> simp_all

theorem vsBlock_whole {lastOutputEnd : Nat} {p : Nat × Instruction} (whole : Whole p.2) :
    ∀ ins ∈ (vsBlock slotRegister lastOutputEnd p).instructions, Whole ins := by
  have move : Whole (vsMove slotRegister) := whole_plain 5 (by decide) rfl
  have declaration : Whole (vsDeclaration slotRegister) := whole_plain 3 (by decide) rfl
  intro ins member
  unfold vsBlock Block.instructions at member
  grind

theorem patchVs_preserves {bytes out : Bytes}
    (patched : patchVsProgram bytes slotRegister = .ok out) :
    ∃ program blocks, Preserves (programWords bytes) (programWords out) id program
      [vsDeclaration slotRegister] [vsMove slotRegister] blocks := by
  unfold patchVsProgram at patched
  obtain ⟨s, scanned, patched⟩ := bind_eq_ok.mp patched
  obtain ⟨some_, patched⟩ := check_eq_ok.mp patched
  obtain ⟨-, patched⟩ := check_eq_ok.mp patched
  obtain ⟨-, patched⟩ := check_eq_ok.mp patched
  obtain ⟨words, emitted, patched⟩ := bind_eq_ok.mp patched
  cases patched
  generalize programWords bytes = t at scanned emitted
  obtain ⟨program, rest, wholes, folded⟩ := walk_splits (fun _ _ _ _ _ _ => rfl) scanned
    (by rw [List.length_drop]; omega)
  have ends : s.lastOutputEnd = 0 ∨
      s.lastOutputEnd ∈ (placed 2 program).map fun p => p.1 + p.2.length := by
    refine foldPlaced_inv (I := fun done s => s.lastOutputEnd = 0 ∨
      s.lastOutputEnd ∈ done.map fun p => p.1 + p.2.length) (.inl rfl) ?_ folded
    intro done p s s' _ inv stepped
    have turn := scanVs_ends stepped
    grind
  have placedAt := ends.resolve_left some_
  have program_some : program ≠ [] := by
    rintro rfl
    cases placedAt
  have layout := layout_of_drop rest program_some wholes
  refine ⟨program, (placed 2 program).map (vsBlock slotRegister s.lastOutputEnd),
    preserves_of_blocks layout wholes ?_ ?_ ?_ ?_ ?_ ?_⟩
  · exact walk_emits id (emitVs_eq slotRegister s.lastOutputEnd) layout wholes emitted
  · intro b member
    obtain ⟨p, inside, rfl⟩ := List.mem_map.mp member
    refine vsBlock_whole (wholes p.2 ?_)
    rw [← placed_map_snd 2 program]
    exact List.mem_map_of_mem inside
  · rw [List.map_map, List.map_id]
    exact placed_map_snd 2 program
  · rw [List.flatMap_map]
    exact .of_eq (flatMap_once (placed_ends_nodup wholes) placedAt)
  · intro b member
    obtain ⟨p, -, rfl⟩ := List.mem_map.mp member
    rfl
  · have other : writtenTemp (vsMove slotRegister) = none :=
      if_neg (show operandType 0x00102012 ≠ 0 by decide)
    intro ins member n written
    rw [List.mem_singleton.mp member, other] at written
    cases written

end EdvrPatch.Dxbc
