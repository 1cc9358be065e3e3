import EdvrPatch.Dxbc.PixelPreserves

/-! A patched program declares the slot's register once: the old declarations that the patch reads
are of other registers, and so are those whose registers stand in the signature. -/
namespace EdvrPatch.Dxbc

open Lib

/-! ### Declared registers -/

def kOpDclIndexRange : UInt32 := 91

def isExtended (token : UInt32) : Bool :=
  token &&& 0x80000000 ≠ 0

def behindToken : List UInt32 → List UInt32
  | [] => []
  | token :: rest => if isExtended token then behindToken rest else rest

/-- Whether a declaration names a register of a file: inputs are operands of type 1 and
outputs of type 2. A range of registers has its length behind the first one. -/
def declares (file r : UInt32) (ins : Instruction) : Bool :=
  match behindToken ins with
  | [] => false
  | token :: operand =>
    operandType token = file &&
      match behindToken (token :: operand) with
      | [] => false
      | first :: rest =>
        if ins.opcode = kOpDclIndexRange then
          first ≤ r && r.toNat < first.toNat + (rest.headD 0).toNat
        else kOpDclInput ≤ ins.opcode && ins.opcode ≤ kOpDclOutputSiv && first = r

/-- A declaration with plain tokens, whose opcode is one of a range. -/
def isPlain (first last : UInt32) (ins : Instruction) : Bool :=
  first ≤ ins.opcode && ins.opcode ≤ last && !isExtended (ins.word 0) && !isExtended (ins.word 1)

def Listed (file : UInt32) (elements : List SignatureElement) (ins : Instruction) : Prop :=
  ∀ r, declares file r ins = true → ∃ e ∈ elements, e.registerIndex = r

variable {file r : UInt32} {ins : Instruction}

theorem declares_plain {first last : UInt32} (plain : isPlain first last ins = true)
    (range : kOpDclIndexRange < first) (declared : declares file r ins = true) :
    3 ≤ ins.length ∧ operandType (ins.word 1) = file ∧ ins.word 2 = r := by
  unfold isPlain at plain
  simp only [Bool.and_eq_true, Bool.not_eq_true', decide_eq_true_eq] at plain
  obtain ⟨⟨⟨low, high⟩, plain₀⟩, plain₁⟩ := plain
  unfold declares at declared
  match ins with
  | [] => cases declared
  | [t₀] =>
    simp [behindToken] at declared
  | [t₀, t₁] =>
    change isExtended t₀ = false at plain₀
    simp [behindToken, plain₀] at declared
  | t₀ :: t₁ :: t₂ :: rest =>
    change isExtended t₀ = false at plain₀
    change isExtended t₁ = false at plain₁
    have named : Instruction.opcode (t₀ :: t₁ :: t₂ :: rest) ≠ kOpDclIndexRange := by
      rintro same
      rw [same] at low
      exact absurd low (UInt32.not_le.mpr range)
    simp only [behindToken, plain₀, plain₁, Bool.false_eq_true, if_false, if_neg named,
      Bool.and_eq_true, decide_eq_true_eq] at declared
    exact ⟨by simp, declared.1, declared.2.2⟩

/-! ### Retouched instructions -/

theorem isExtended_widened (token : UInt32) : isExtended (token ||| 0x40) = isExtended token := by
  have kept : (token ||| 0x40) &&& 0x80000000 = token &&& 0x80000000 := by
    rw [← UInt32.toBitVec_inj, UInt32.toBitVec_and, UInt32.toBitVec_or, UInt32.toBitVec_and,
      BitVec.and_or_distrib_right]
    exact BitVec.or_zero
  unfold isExtended
  rw [kept]

theorem operandType_widened (token : UInt32) : operandType (token ||| 0x40) = operandType token := by
  unfold operandType
  rw [UInt32.shiftRight_or, show (0x40 : UInt32) >>> 12 = 0 by decide, UInt32.or_zero]

theorem declares_widen (inputs : EngineVelocityInputs) (file r : UInt32) (ins : Instruction) :
    declares file r (widen inputs ins) = declares file r ins := by
  unfold widen
  split
  · rename_i position
    have long := length_of_isPosition position
    match ins with
    | [] | [_] => simp at long
    | t₀ :: t₁ :: rest =>
      change declares file r (t₀ :: (t₁ ||| 0x40) :: rest) = _
      unfold declares
      have opcode (t : UInt32) : Instruction.opcode (t₀ :: t :: rest) = t₀ &&& 0x7ff := rfl
      rw [opcode, opcode]
      cases ext₀ : isExtended t₀ with
      | true => simp [behindToken, ext₀, isExtended_widened]
      | false => simp [behindToken, ext₀, isExtended_widened, operandType_widened]
  · rfl

theorem declares_of_opcode
    (other : ins.opcode ≠ kOpDclIndexRange ∧ ¬(kOpDclInput ≤ ins.opcode ∧ ins.opcode ≤ kOpDclOutputSiv)) :
    declares file r ins = false := by
  unfold declares
  split
  · rfl
  split
  · simp
  · rw [if_neg other.1]
    simp only [Bool.and_eq_false_iff, decide_eq_false_iff_not]
    tauto

theorem declares_cons_of_opcode {token : UInt32} {rest : List UInt32}
    (other : token &&& 0x7ff ≠ kOpDclIndexRange ∧ ¬(kOpDclInput ≤ token &&& 0x7ff ∧ token &&& 0x7ff ≤ kOpDclOutputSiv)) :
    declares file r (token :: rest) = false :=
  declares_of_opcode other

theorem declares_cons {token operand register : UInt32} {rest : List UInt32}
    (plain : isExtended token = false ∧ isExtended operand = false)
    (opcode : token &&& 0x7ff ≠ kOpDclIndexRange ∧ kOpDclInput ≤ token &&& 0x7ff ∧ token &&& 0x7ff ≤ kOpDclOutputSiv) :
    declares file r (token :: operand :: register :: rest) =
      (operandType operand = file && register = r) := by
  have same : Instruction.opcode (token :: operand :: register :: rest) = token &&& 0x7ff := rfl
  unfold declares
  simp [behindToken, plain, same, opcode]

/-! ### The patched programs -/

variable {program : List Instruction}

theorem Preserves.only {t u : List UInt32} {retouch : Instruction → Instruction}
    {declared tail : List Instruction} {blocks : List Block}
    (preserved : Preserves t u retouch program declared tail blocks) {p : Instruction → Bool}
    (old : ∀ ins ∈ program, p (retouch ins) = false) (tails : ∀ ins ∈ tail, p ins = false)
    {d : Instruction} (new : declared.filter p = [d]) :
    ∃ program', instructionsOf u = .ok program' ∧ program'.filter p = [d] := by
  refine ⟨_, preserved.walks, ?_⟩
  have each (b : Block) (member : b ∈ blocks) :
      b.instructions.filter p = b.declared.filter p := by
    have tail_none : b.tail.filter p = [] := by
      rw [preserved.tails b member, List.filter_eq_nil_iff]
      split
      · exact fun ins inside => by simp [tails ins inside]
      · nofun
    have original : p b.original = false := by
      have inside : b.original ∈ program.map retouch := by
        rw [← preserved.kept]
        exact List.mem_map_of_mem member
      obtain ⟨ins, listed, same⟩ := List.mem_map.mp inside
      rw [← same]
      exact old ins listed
    unfold Block.instructions Block.declared
    simp only [List.filter_append, tail_none, List.append_nil]
    rw [List.filter_singleton, original]
    simp
  have same : (blocks.flatMap Block.instructions).filter p =
      (blocks.flatMap Block.declared).filter p := by
    rw [List.filter_flatMap, List.filter_flatMap]
    exact List.flatMap_congr each
  rw [same, ← List.perm_singleton, ← new]
  exact preserved.declarations.filter p

theorem folded_of_walk {σ : Type} (tokens : σ → List UInt32)
    {step : σ → Nat → Instruction → Result σ}
    (frame : ∀ s at_ ins s', ins <+: (tokens s).drop at_ → step s at_ ins = .ok s' → (tokens s').drop (at_ + ins.length) = (tokens s).drop (at_ + ins.length))
    {s s' : σ} (walked : walk tokens step (tokens s).length 2 s = .ok s')
    (reads : instructionsOf (tokens s) = .ok program) : foldPlaced step 2 s program = .ok s' := by
  obtain ⟨l, rest, wholes, folded⟩ := walk_splits frame walked (by rw [List.length_drop]; omega)
  by_cases some_ : l = []
  · subst some_
    have short : (tokens s).length ≤ 2 := List.drop_eq_nil_iff.mp rest
    have none_ : instructionsOf (tokens s) = .ok [] := by
      unfold instructionsOf
      cases (tokens s).length with
      | zero => rfl
      | succ n =>
        exact if_pos short
    cases none_.symm.trans reads
    exact folded
  · have layout := layout_of_drop rest some_ wholes
    cases (instructionsOf_of_whole layout wholes).symm.trans reads
    exact folded

theorem forall_of_folded {σ : Type} {step : σ → Nat → Instruction → Result σ}
    {P : Instruction → Prop} (turn : ∀ s at_ ins s', step s at_ ins = .ok s' → P ins) {at_ : Nat}
    {s s' : σ} (folded : foldPlaced step at_ s program = .ok s') : ∀ ins ∈ program, P ins := by
  induction program generalizing at_ s with
  | nil => nofun
  | cons first rest ih =>
    obtain ⟨next, stepped, folded⟩ := bind_eq_ok.mp folded
    intro ins member
    rcases List.mem_cons.mp member with rfl | later
    · exact turn _ _ _ _ stepped
    · exact ih folded ins later

variable {bytes out : Bytes}

theorem patchVs_free (patched : patchVsProgram bytes r = .ok out)
    (reads : instructionsOf (programWords bytes) = .ok program) :
    ∀ ins ∈ program, isPlain kOpDclOutput kOpDclOutputSiv ins = true → declares 2 r ins = false := by
  obtain ⟨s, scanned, -⟩ := bind_eq_ok.mp patched
  have folded : foldPlaced (scanVs r) 2 {} program = .ok s :=
    folded_of_walk (fun _ => programWords bytes) (fun _ _ _ _ _ _ => rfl) scanned reads
  refine forall_of_folded (fun s at_ ins s' stepped plain => ?_) folded
  by_contra declared
  obtain ⟨long, file, here⟩ := declares_plain plain (by decide) (by simpa using declared)
  obtain ⟨-, -, stepped⟩ := bind_eq_ok.mp stepped
  obtain ⟨free, -⟩ := check_eq_ok.mp stepped
  unfold isPlain at plain
  simp only [Bool.and_eq_true, decide_eq_true_eq] at plain
  refine free ⟨?_, long, file, here⟩
  unfold isOutputDeclaration
  simp [plain.1.1]

variable {inputs : EngineVelocityInputs}

theorem patchPs_free (own : inputs.slotFromVsPatch = true)
    (patched : patchPsProgram bytes inputs = .ok out)
    (reads : instructionsOf (programWords bytes) = .ok program) :
    ∀ ins ∈ program, isPlain kOpDclInputPs kOpDclInputPsSiv ins = true →
      declares 1 inputs.identityRegister ins = false := by
  unfold patchPsProgram at patched
  obtain ⟨s, scanned, -⟩ := bind_eq_ok.mp patched
  have folded : foldPlaced (scanPs inputs) 2 { t := programWords bytes } program = .ok s :=
    folded_of_walk PsScan.t (fun _ _ _ _ _ stepped => scanPs_frame stepped) scanned reads
  refine forall_of_folded (fun s at_ ins s' stepped plain => ?_) folded
  by_contra declared
  obtain ⟨long, file, here⟩ := declares_plain plain (by decide) (by simpa using declared)
  unfold isPlain at plain
  simp only [Bool.and_eq_true, decide_eq_true_eq] at plain
  unfold scanPs at stepped
  obtain ⟨-, -, stepped⟩ := bind_eq_ok.mp stepped
  obtain ⟨-, stepped⟩ := check_eq_ok.mp stepped
  rw [if_pos ⟨plain.1.1.1, plain.1.1.2, long, file⟩] at stepped
  obtain ⟨_, turn, -⟩ := bind_eq_ok.mp stepped
  unfold scanInput at turn
  obtain ⟨free, -⟩ := check_eq_ok.mp turn
  exact free ⟨here, own⟩

variable {elements : List SignatureElement}

theorem unlisted (absent : ∀ e ∈ elements, e.registerIndex ≠ r)
    (listed : Listed file elements ins) : declares file r ins = false := by
  by_contra declared
  obtain ⟨e, member, here⟩ := listed r (by simpa using declared)
  exact absent e member here

theorem patchVs_declares (patched : patchVsProgram bytes r = .ok out)
    (absent : ∀ e ∈ elements, e.registerIndex ≠ r) :
    ∃ program program', instructionsOf (programWords bytes) = .ok program ∧
      instructionsOf (programWords out) = .ok program' ∧
      ((∀ ins ∈ program, isPlain kOpDclOutput kOpDclOutputSiv ins = true ∨ Listed 2 elements ins) →
        program'.filter (declares 2 r) = [vsDeclaration r]) := by
  obtain ⟨program, blocks, preserved⟩ := patchVs_preserves patched
  refine ⟨program, _, preserved.reads, preserved.walks, fun named => ?_⟩
  have old : ∀ ins ∈ program, declares 2 r (id ins) = false := by
    intro ins member
    rcases named ins member with plain | listed
    · exact patchVs_free patched preserved.reads ins member plain
    · exact unlisted absent listed
  have tail : ∀ ins ∈ [vsMove r], declares 2 r ins = false := by
    intro ins member
    rw [List.mem_singleton.mp member]
    exact declares_cons_of_opcode (by decide)
  have new : declares 2 r (vsDeclaration r) = true := by
    unfold vsDeclaration
    rw [declares_cons (by decide) (by decide), show operandType 0x00102012 = 2 by decide]
    simp
  obtain ⟨program', walks, only⟩ := @Preserves.only _ _ _ _ _ _ _ preserved (declares 2 r) old tail
    (vsDeclaration r) (by rw [List.filter_singleton, new]; rfl)
  cases preserved.walks.symm.trans walks
  exact only

theorem filter_psDeclarations (own : inputs.slotFromVsPatch = true)
    (apart : inputs.positionRegister ≠ inputs.identityRegister) (program : List Instruction) :
    (psDeclarations inputs program).filter (declares 1 inputs.identityRegister) =
      [slotDeclaration inputs] := by
  have slot : declares 1 inputs.identityRegister (slotDeclaration inputs) = true := by
    unfold slotDeclaration
    rw [declares_cons (by decide) (by decide), show operandType 0x00101012 = 1 by decide]
    simp
  have position : declares 1 inputs.identityRegister (posDeclaration inputs) = false := by
    unfold posDeclaration
    rw [declares_cons (by decide) (by decide)]
    simp [apart]
  have output : declares 1 inputs.identityRegister outDeclaration = false := by
    rfl
  have temps : declares 1 inputs.identityRegister tempDeclaration = false :=
    declares_of_opcode (by decide)
  unfold psDeclarations
  rw [if_pos own, List.filter_append, List.filter_append, List.filter_append,
    List.filter_singleton, slot, List.filter_singleton, output]
  split <;> split <;> simp [position, temps]

theorem patchPs_declares (own : inputs.slotFromVsPatch = true)
    (apart : inputs.positionRegister ≠ inputs.identityRegister)
    (patched : patchPsProgram bytes inputs = .ok out)
    (absent : ∀ e ∈ elements, e.registerIndex ≠ inputs.identityRegister) :
    ∃ program program', instructionsOf (programWords bytes) = .ok program ∧
      instructionsOf (programWords out) = .ok program' ∧
      ((∀ ins ∈ program,
          isPlain kOpDclInputPs kOpDclInputPsSiv ins = true ∨ Listed 1 elements ins) →
        program'.filter (declares 1 inputs.identityRegister) = [slotDeclaration inputs]) := by
  obtain ⟨program, blocks, preserved⟩ := patchPs_preserves patched
  refine ⟨program, _, preserved.reads, preserved.walks, fun named => ?_⟩
  have old : ∀ ins ∈ program, declares 1 inputs.identityRegister (retouch inputs ins) = false := by
    intro ins member
    unfold retouch
    split
    · rename_i temps
      refine declares_of_opcode ?_
      rw [show Instruction.opcode [ins.word 0, ins.word 1 + 1] = ins.opcode from rfl, temps]
      decide
    · rw [declares_widen]
      rcases named ins member with plain | listed
      · exact patchPs_free own patched preserved.reads ins member plain
      · exact unlisted absent listed
  have tail : ∀ ins ∈ psTail inputs (tempsDeclared program),
      declares 1 inputs.identityRegister ins = false := by
    intro ins member
    unfold psTail at member
    simp only [List.mem_cons, List.not_mem_nil, or_false] at member
    rcases member with rfl | rfl | rfl | rfl <;> exact declares_cons_of_opcode (by decide)
  obtain ⟨program', walks, only⟩ := @Preserves.only _ _ _ _ _ _ _ preserved
    (declares 1 inputs.identityRegister) old tail (slotDeclaration inputs)
    (filter_psDeclarations own apart program)
  cases preserved.walks.symm.trans walks
  exact only

end EdvrPatch.Dxbc
