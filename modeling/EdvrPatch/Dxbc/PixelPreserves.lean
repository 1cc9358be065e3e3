import EdvrPatch.Dxbc.PatchPreserves

/-! The patched pixel program. Its first walk makes the position live in the tokens
themselves, and the second one copies what the first has left. -/
namespace EdvrPatch.Dxbc

open Lib

/-- The declaration of the position, whose `z` the patch makes live. -/
def isPositionDeclaration (inputs : EngineVelocityInputs) (ins : Instruction) : Bool :=
  kOpDclInputPs ≤ ins.opcode && ins.opcode ≤ kOpDclInputPsSiv && 3 ≤ ins.length &&
    operandType (ins.word 1) = 1 && ins.word 2 = inputs.positionRegister

def widen (inputs : EngineVelocityInputs) (ins : Instruction) : Instruction :=
  if isPositionDeclaration inputs ins then ins.set 1 (ins.word 1 ||| 0x40) else ins

def retouch (inputs : EngineVelocityInputs) (ins : Instruction) : Instruction :=
  if ins.opcode = kOpDclTemps then [ins.word 0, ins.word 1 + 1] else widen inputs ins

def psDeclarations (inputs : EngineVelocityInputs) (program : List Instruction) :
    List Instruction :=
  (if program.any (isPositionDeclaration inputs) then [] else [posDeclaration inputs]) ++
  (if inputs.slotFromVsPatch then [slotDeclaration inputs] else []) ++
  [outDeclaration] ++
  (if program.any fun ins => ins.opcode = kOpDclTemps then [] else [tempDeclaration])

structure ScanTurn (inputs : EngineVelocityInputs) (s : PsScan) (at_ : Nat) (ins : Instruction)
    (s' : PsScan) : Prop where
  tokens : s'.t = if isPositionDeclaration inputs ins then
    s.t.set (at_ + 1) (ins.word 1 ||| 0x40) else s.t
  position : s'.positionDeclared = (s.positionDeclared || isPositionDeclaration inputs ins)
  output : s'.firstOutput = s.firstOutput ∨ s'.firstOutput = at_
  executable : s'.firstExecutable = s.firstExecutable ∨ s'.firstExecutable = at_
  temps : ins.opcode = kOpDclTemps → s.tempAt = 0 ∧ ins.length = 2 ∧
    s'.tempAt = at_ ∧ s'.tempCount = ins.word 1
  others : ins.opcode ≠ kOpDclTemps → s'.tempAt = s.tempAt ∧ s'.tempCount = s.tempCount

variable {inputs : EngineVelocityInputs} {s s' : PsScan} {at_ : Nat} {ins : Instruction}

theorem scanInput_turn (scanned : scanInput inputs s at_ ins = .ok s') :
    s' = { s with
      t := if ins.word 2 = inputs.positionRegister then
        s.t.set (at_ + 1) (ins.word 1 ||| 0x40) else s.t
      identityDeclared := s'.identityDeclared
      positionDeclared := s.positionDeclared || decide (ins.word 2 = inputs.positionRegister) } := by
  unfold scanInput at scanned
  obtain ⟨-, scanned⟩ := check_eq_ok.mp scanned
  dsimp only at scanned
  by_cases placed : ins.word 2 = inputs.positionRegister
  · rw [if_pos placed] at scanned
    obtain ⟨-, scanned⟩ := check_eq_ok.mp scanned
    cases scanned
    split <;> simp [placed]
  · rw [if_neg placed] at scanned
    cases scanned
    split <;> simp [placed]

theorem scanInputs_bind {next : PsScan → Result PsScan}
    (scanned : (if kOpDclInputPs ≤ ins.opcode ∧ ins.opcode ≤ kOpDclInputPsSiv ∧ 3 ≤ ins.length ∧ operandType (ins.word 1) = 1 then scanInput inputs s at_ ins >>= next else pure s >>= next) = .ok s') :
    ∃ identityDeclared, next { s with
      t := if isPositionDeclaration inputs ins then
        s.t.set (at_ + 1) (ins.word 1 ||| 0x40) else s.t
      identityDeclared
      positionDeclared := s.positionDeclared || isPositionDeclaration inputs ins } = .ok s' := by
  split at scanned
  · rename_i input
    obtain ⟨s₁, turn, scanned⟩ := bind_eq_ok.mp scanned
    have same : isPositionDeclaration inputs ins =
        decide (ins.word 2 = inputs.positionRegister) := by
      simp [isPositionDeclaration, input]
    rw [scanInput_turn turn] at scanned
    refine ⟨s₁.identityDeclared, ?_⟩
    rw [same]
    simpa using scanned
  · rename_i other
    have plain : isPositionDeclaration inputs ins = false := by
      unfold isPositionDeclaration
      grind
    refine ⟨s.identityDeclared, ?_⟩
    rw [plain, Bool.or_false]
    exact scanned

theorem scanTemps_bind {next : PsScan → Result PsScan}
    (scanned : (if ins.opcode = kOpDclTemps then if s.tempAt ≠ 0 ∨ ins.length ≠ 2 ∨ 4092 < ins.word 1 then throw "temps" >>= next else pure { s with tempAt := at_, tempCount := ins.word 1 } >>= next else pure s >>= next) = .ok s') :
    ins.opcode = kOpDclTemps ∧ s.tempAt = 0 ∧ ins.length = 2 ∧
        next { s with tempAt := at_, tempCount := ins.word 1 } = .ok s' ∨
      ins.opcode ≠ kOpDclTemps ∧ next s = .ok s' := by
  split at scanned
  · rename_i temps
    split at scanned
    · cases scanned
    rename_i passed
    push Not at passed
    exact .inl ⟨temps, passed.1, passed.2.1, scanned⟩
  · rename_i other
    exact .inr ⟨other, scanned⟩

theorem scanPs_turn (scanned : scanPs inputs s at_ ins = .ok s') :
    ScanTurn inputs s at_ ins s' := by
  obtain ⟨_, -, scanned⟩ := bind_eq_ok.mp scanned
  obtain ⟨-, scanned⟩ := check_eq_ok.mp scanned
  obtain ⟨_, scanned⟩ := scanInputs_bind scanned
  rcases scanTemps_bind scanned with ⟨temps, none_, size, scanned⟩ | ⟨other, scanned⟩
  · cases scanned
    constructor <;> grind
  · cases scanned
    constructor <;> grind

section

variable {inputs : EngineVelocityInputs}

variable {ins : Instruction}

theorem length_of_isPosition (position : isPositionDeclaration inputs ins = true) :
    3 ≤ ins.length := by
  unfold isPositionDeclaration at position
  grind

variable {s s' : PsScan}

theorem scanPs_frame {at_ : Nat} (scanned : scanPs inputs s at_ ins = .ok s') :
    s'.t.drop (at_ + ins.length) = s.t.drop (at_ + ins.length) := by
  rw [(scanPs_turn scanned).tokens]
  split
  · rename_i position
    have long := length_of_isPosition position
    exact List.drop_set_of_lt (by omega)
  · rfl

@[simp] theorem length_widen (ins : Instruction) : (widen inputs ins).length = ins.length := by
  unfold widen
  split <;> simp

theorem widen_word_zero (ins : Instruction) : (widen inputs ins).word 0 = ins.word 0 := by
  unfold widen Instruction.word
  split <;> simp [List.getD_eq_getElem?_getD]

theorem widen_opcode (ins : Instruction) : (widen inputs ins).opcode = ins.opcode := by
  unfold Instruction.opcode
  rw [widen_word_zero]

theorem Whole.widen (whole : Whole ins) : Whole (widen inputs ins) := by
  unfold Dxbc.widen
  split
  · rename_i position
    obtain ⟨token, rest, rfl⟩ := List.exists_cons_of_length_pos whole.some_
    have plain : token &&& 0x7ff ≠ 53 := by
      intro custom
      have op : Instruction.opcode (token :: rest) = 53 := custom
      unfold isPositionDeclaration at position
      rw [op] at position
      cases position
    refine whole_plain _ ⟨plain, whole_size plain whole⟩ ?_
    rw [List.length_set]
  · exact whole

theorem retouch_opcode (ins : Instruction) : (retouch inputs ins).opcode = ins.opcode := by
  unfold retouch
  split
  · rfl
  · exact widen_opcode ins

theorem scan_tokens {front : List UInt32} {l : List Instruction}
    (layout : s.t = front ++ l.flatten)
    (folded : foldPlaced (scanPs inputs) front.length s l = .ok s') :
    s'.t = front ++ (l.map (widen inputs)).flatten := by
  induction l generalizing front s with
  | nil =>
    cases folded
    exact layout
  | cons ins rest ih =>
    rw [foldPlaced_cons] at folded
    obtain ⟨next, scanned, folded⟩ := bind_eq_ok.mp folded
    have turned : next.t = (front ++ widen inputs ins) ++ rest.flatten := by
      rw [(scanPs_turn scanned).tokens, layout, List.flatten_cons]
      unfold widen
      split
      · rename_i position
        have long := length_of_isPosition position
        rw [List.set_append_right _ _ (by omega), Nat.add_sub_cancel_left, List.set_append_left,
          List.append_assoc]
        omega
      · rw [List.append_assoc]
    have size : front.length + ins.length = (front ++ widen inputs ins).length := by
      rw [List.length_append, length_widen]
    rw [size] at folded
    rw [ih turned folded, List.map_cons, List.flatten_cons, List.append_assoc]

structure Scanned (inputs : EngineVelocityInputs) (turns : List (Nat × Instruction))
    (s : PsScan) : Prop where
  position : s.positionDeclared = turns.any fun p => isPositionDeclaration inputs p.2
  output : s.firstOutput = 0 ∨ s.firstOutput ∈ turns.map Prod.fst
  executable : s.firstExecutable = 0 ∨ s.firstExecutable ∈ turns.map Prod.fst
  temps : s.tempAt = 0 ∧ s.tempCount = 0 ∧ (∀ p ∈ turns, p.2.opcode ≠ kOpDclTemps) ∨
    s.tempAt ≠ 0 ∧ ∃ ins, (s.tempAt, ins) ∈ turns ∧ ins.length = 2 ∧ ins.word 1 = s.tempCount ∧
      ∀ p ∈ turns, p.2.opcode = kOpDclTemps ↔ p = (s.tempAt, ins)

theorem Scanned.turn {turns : List (Nat × Instruction)} {p : Nat × Instruction}
    (scanned : Scanned inputs turns s) (later : 0 < p.1) (turn : ScanTurn inputs s p.1 p.2 s') :
    Scanned inputs (turns ++ [p]) s' := by
  refine ⟨?_, ?_, ?_, ?_⟩
  · rw [turn.position, scanned.position, List.any_append, List.any_cons, List.any_nil,
      Bool.or_false]
  · rw [List.map_append, List.mem_append]
    rcases turn.output with same | here
    · rw [same]
      exact scanned.output.imp_right .inl
    · exact .inr (.inr (List.mem_singleton.mpr here))
  · rw [List.map_append, List.mem_append]
    rcases turn.executable with same | here
    · rw [same]
      exact scanned.executable.imp_right .inl
    · exact .inr (.inr (List.mem_singleton.mpr here))
  by_cases declared : p.2.opcode = kOpDclTemps
  · -- the only declaration of temporaries is this one
    obtain ⟨none_, size, at_, count⟩ := turn.temps declared
    obtain ⟨-, -, others⟩ | ⟨earlier, -⟩ := scanned.temps
    · refine .inr ⟨by omega, p.2, ?_, size, count.symm, ?_⟩
      · rw [at_]
        exact List.mem_append_right _ (List.mem_singleton.mpr rfl)
      · intro q member
        rw [at_]
        rcases List.mem_append.mp member with before | here
        · refine ⟨fun op => absurd op (others q before), ?_⟩
          rintro rfl
          exact absurd declared (others _ before)
        · rw [List.mem_singleton.mp here]
          exact ⟨fun _ => rfl, fun _ => declared⟩
    · exact absurd none_ earlier
  · obtain ⟨at_, count⟩ := turn.others declared
    rw [at_, count]
    refine scanned.temps.imp ?_ ?_
    · rintro ⟨none_, zero, others⟩
      refine ⟨none_, zero, fun q member => ?_⟩
      rcases List.mem_append.mp member with before | here
      · exact others q before
      · rw [List.mem_singleton.mp here]
        exact declared
    · rintro ⟨some_, ins, inside, size, first, only⟩
      refine ⟨some_, ins, List.mem_append_left _ inside, size, first, fun q member => ?_⟩
      rcases List.mem_append.mp member with before | here
      · exact only q before
      · rw [List.mem_singleton.mp here]
        refine ⟨fun op => absurd op declared, ?_⟩
        rintro rfl
        exact absurd ((only _ inside).mpr rfl) declared

theorem scanned_of_folded {t : List UInt32} {l : List Instruction}
    (folded : foldPlaced (scanPs inputs) 2 { t } l = .ok s) : Scanned inputs (placed 2 l) s := by
  refine foldPlaced_inv ⟨rfl, .inl rfl, .inl rfl, .inl ⟨rfl, rfl, nofun⟩⟩ ?_ folded
  intro done p s s' member scanned stepped
  have later := le_of_mem_placed member
  exact scanned.turn (by omega) (scanPs_turn stepped)

def outputPlace (s : PsScan) : Nat :=
  if s.tempAt = 0 then s.firstExecutable else s.tempAt

def inputDeclarations (inputs : EngineVelocityInputs) (s : PsScan) : List Instruction :=
  (if s.positionDeclared then [] else [posDeclaration inputs]) ++
  (if inputs.slotFromVsPatch then [slotDeclaration inputs] else [])

def outputDeclarations (s : PsScan) : List Instruction :=
  outDeclaration :: if s.tempAt = 0 then [tempDeclaration] else []

def psBlock (inputs : EngineVelocityInputs) (s : PsScan) (p : Nat × Instruction) : Block where
  ahead := (if p.1 = s.firstOutput then inputDeclarations inputs s else []) ++
    (if p.1 = outputPlace s then outputDeclarations s else [])
  tail := if p.2.opcode = kOpRet ∧ ¬(s.tempAt ≠ 0 ∧ p.1 = s.tempAt) then
    psTail inputs s.tempCount else []
  original := if s.tempAt ≠ 0 ∧ p.1 = s.tempAt then [p.2.word 0, s.tempCount + 1] else p.2

theorem emitPs_eq (s : PsScan) (e : PsEmit) (at_ : Nat) (ins : Instruction) :
    (emitPs inputs s e at_ ins).out =
      e.out ++ (psBlock inputs s (at_, ins)).instructions.flatten := by
  unfold emitPs
  extract_lets e₁ e₂ e₃
  have inputs_out : e₁.out =
      e.out ++ (if at_ = s.firstOutput then inputDeclarations inputs s else []).flatten := by
    dsimp only [e₁]
    unfold inputDeclarations
    split
    · split <;> split <;> simp
    · simp
  have output_out (other : ¬(s.tempAt ≠ 0 ∧ at_ = s.tempAt)) :
      e₂.out = e₁.out ++ (if at_ = outputPlace s then outputDeclarations s else []).flatten := by
    dsimp only [e₂]
    unfold outputPlace outputDeclarations
    clear_value e₁
    clear inputs_out
    grind
  have tail_out : e₃.out =
      e₂.out ++ (if ins.opcode = kOpRet then psTail inputs s.tempCount else []).flatten := by
    dsimp only [e₃]
    split <;> simp
  clear_value e₁ e₂ e₃
  unfold psBlock Block.instructions
  by_cases temps : s.tempAt ≠ 0 ∧ at_ = s.tempAt
  · have place : outputPlace s = s.tempAt := if_neg temps.1
    simp [temps, inputs_out, place, outputDeclarations]
  · rw [if_neg temps]
    simp only [temps, not_false_eq_true, and_true, if_false, List.flatten_append,
      List.flatten_cons, List.flatten_nil, List.append_nil, tail_out, output_out temps, inputs_out,
      List.append_assoc]

theorem placed_map {f : Instruction → Instruction} (same : ∀ ins, (f ins).length = ins.length)
    (at_ : Nat) (l : List Instruction) :
    placed at_ (l.map f) = (placed at_ l).map fun p => (p.1, f p.2) := by
  induction l generalizing at_ with
  | nil => rfl
  | cons ins rest ih => rw [List.map_cons, placed, placed, List.map_cons, same, ih]

theorem Whole.retouch (whole : Whole ins) (temps : ins.opcode = kOpDclTemps → ins.length = 2) :
    Whole (retouch inputs ins) := by
  unfold Dxbc.retouch
  split
  · rename_i declared
    obtain ⟨token, count, rfl⟩ := List.length_eq_two.mp (temps declared)
    have plain : token &&& 0x7ff ≠ 53 := by
      have op : token &&& 0x7ff = kOpDclTemps := declared
      rw [op]
      decide
    exact whole_plain _ ⟨plain, whole_size plain whole⟩ rfl
  · exact whole.widen

theorem whole_inputDeclarations (s : PsScan) : ∀ ins ∈ inputDeclarations inputs s, Whole ins := by
  have position : Whole (posDeclaration inputs) := whole_plain 4 (by decide) rfl
  have slot : Whole (slotDeclaration inputs) := whole_plain 3 (by decide) rfl
  unfold inputDeclarations
  grind

theorem whole_outputDeclarations (s : PsScan) : ∀ ins ∈ outputDeclarations s, Whole ins := by
  have output : Whole outDeclaration := whole_plain 3 (by decide) rfl
  have temps : Whole tempDeclaration := whole_plain 2 (by decide) rfl
  unfold outputDeclarations
  grind

theorem whole_psTail (temp : UInt32) : ∀ ins ∈ psTail inputs temp, Whole ins := by
  intro ins member
  unfold psTail at member
  simp only [List.mem_cons, List.not_mem_nil, or_false] at member
  rcases member with rfl | rfl | rfl | rfl
  · exact whole_plain 7 (by decide) rfl
  · exact whole_plain 9 (by decide) rfl
  · exact whole_plain 5 (by decide) rfl
  · exact whole_plain 5 (by decide) rfl

theorem writtenTemp_cons (token operand n : UInt32) (rest : List UInt32) :
    writtenTemp (token :: operand :: n :: rest) =
      if operandType operand = 0 then some n else none := rfl

theorem writtenTemp_psTail {temp n : UInt32} (member : ins ∈ psTail inputs temp)
    (written : writtenTemp ins = some n) : n = temp := by
  unfold psTail at member
  simp only [List.mem_cons, List.not_mem_nil, or_false] at member
  rcases member with rfl | rfl | rfl | rfl
  · rw [writtenTemp_cons, if_pos (by decide)] at written
    exact (Option.some.inj written).symm
  · rw [writtenTemp_cons, if_pos (by decide)] at written
    exact (Option.some.inj written).symm
  · rw [writtenTemp_cons, if_neg (by decide)] at written
    cases written
  · rw [writtenTemp_cons, if_neg (by decide)] at written
    cases written

section

variable {program : List Instruction} {s : PsScan} (wholes : ∀ ins ∈ program, Whole ins)
  (scanned : Scanned inputs (placed 2 program) s) {p : Nat × Instruction}
  (member : p ∈ placed 2 program)

include scanned in
theorem Scanned.tempCount_eq : tempsDeclared program = s.tempCount := by
  have listed (ins : Instruction) (inside : ins ∈ program) : ∃ p ∈ placed 2 program, p.2 = ins := by
    rw [← placed_map_snd 2 program] at inside
    exact List.mem_map.mp inside
  unfold tempsDeclared
  split
  · rename_i ins found
    have op : ins.opcode = kOpDclTemps := by simpa using List.find?_some found
    obtain ⟨q, placed_, rfl⟩ := listed ins (List.mem_of_find?_eq_some found)
    obtain ⟨-, -, others⟩ | ⟨-, first, -, -, count, only⟩ := scanned.temps
    · exact absurd op (others q placed_)
    · rw [(only q placed_).mp op]
      exact count
  · rename_i none_
    obtain ⟨-, count, -⟩ | ⟨-, first, inside, -, -, only⟩ := scanned.temps
    · exact count.symm
    · have op := (only _ inside).mpr rfl
      have listed_ : first ∈ program := by
        rw [← placed_map_snd 2 program]
        exact List.mem_map_of_mem inside
      have other := List.find?_eq_none.mp none_ first listed_
      exact absurd op (by simpa using other)

include scanned in
theorem Scanned.outputPlace_mem (executable : ¬(s.tempAt = 0 ∧ s.firstExecutable = 0)) :
    outputPlace s ∈ (placed 2 program).map Prod.fst := by
  unfold outputPlace
  split
  · rename_i none_
    exact scanned.executable.resolve_left fun zero => executable ⟨none_, zero⟩
  · rename_i some_
    obtain ⟨none_, -⟩ | ⟨-, ins, inside, -⟩ := scanned.temps
    · exact absurd none_ some_
    · exact List.mem_map.mpr ⟨_, inside, rfl⟩

include scanned in
theorem Scanned.declarations_eq :
    psDeclarations inputs program = inputDeclarations inputs s ++ outputDeclarations s := by
  have position : program.any (isPositionDeclaration inputs) = s.positionDeclared := by
    conv_lhs => rw [← placed_map_snd 2 program]
    rw [scanned.position, List.any_map]
    rfl
  have temps : (program.any fun ins => ins.opcode = kOpDclTemps) = !decide (s.tempAt = 0) := by
    conv_lhs => rw [← placed_map_snd 2 program]
    rw [List.any_map]
    obtain ⟨none_, -, others⟩ | ⟨some_, ins, inside, -, -, only⟩ := scanned.temps
    · rw [none_, List.any_eq_false.mpr]
      · rfl
      · exact fun p member => by simpa using others p member
    · rw [List.any_eq_true.mpr ⟨_, inside, by simpa using (only _ inside).mpr rfl⟩]
      simp [some_]
  unfold psDeclarations inputDeclarations outputDeclarations
  rw [position, temps]
  by_cases none_ : s.tempAt = 0 <;> simp [none_]

include wholes scanned member

theorem Scanned.at_temps : s.tempAt ≠ 0 ∧ p.1 = s.tempAt ↔ p.2.opcode = kOpDclTemps := by
  obtain ⟨none_, -, others⟩ | ⟨some_, ins, inside, -, -, only⟩ := scanned.temps
  · exact ⟨fun there => absurd none_ there.1, fun op => absurd op (others p member)⟩
  · rw [only p member]
    refine ⟨fun there => ?_, ?_⟩
    · exact List.inj_on_of_nodup_map (placed_starts_nodup wholes) member inside there.2
    · rintro rfl
      exact ⟨some_, rfl⟩

theorem psBlock_original :
    (psBlock inputs s (p.1, widen inputs p.2)).original = retouch inputs p.2 := by
  unfold psBlock retouch
  by_cases op : p.2.opcode = kOpDclTemps
  · rw [if_pos op, if_pos ((scanned.at_temps wholes member).mpr op), widen_word_zero]
    obtain ⟨-, -, others⟩ | ⟨-, ins, inside, -, count, only⟩ := scanned.temps
    · exact absurd op (others p member)
    · rw [(only p member).mp op, count]
  · rw [if_neg op, if_neg fun there => op ((scanned.at_temps wholes member).mp there)]

theorem psBlock_tail : (psBlock inputs s (p.1, widen inputs p.2)).tail =
    if p.2.opcode = kOpRet then psTail inputs s.tempCount else [] := by
  unfold psBlock
  dsimp only
  rw [widen_opcode]
  by_cases op : p.2.opcode = kOpRet
  · have other : ¬(s.tempAt ≠ 0 ∧ p.1 = s.tempAt) := by
      rw [scanned.at_temps wholes member, op]
      decide
    rw [if_pos ⟨op, other⟩, if_pos op]
  · rw [if_neg op, if_neg fun both => op both.1]

theorem psBlock_whole :
    ∀ ins ∈ (psBlock inputs s (p.1, widen inputs p.2)).instructions, Whole ins := by
  have listed : p.2 ∈ program := by
    rw [← placed_map_snd 2 program]
    exact List.mem_map_of_mem member
  have size (op : p.2.opcode = kOpDclTemps) : p.2.length = 2 := by
    obtain ⟨-, -, others⟩ | ⟨-, ins, -, size, -, only⟩ := scanned.temps
    · exact absurd op (others p member)
    · rw [(only p member).mp op]
      exact size
  intro ins inside
  unfold Block.instructions at inside
  rw [psBlock_original wholes scanned member, psBlock_tail wholes scanned member] at inside
  rcases List.mem_append.mp inside with inside | behind
  · rcases List.mem_append.mp inside with inside | original
    · rcases List.mem_append.mp inside with ahead | tail
      · rcases List.mem_append.mp ahead with input | output
        · split at input
          · exact whole_inputDeclarations s ins input
          · cases input
        · split at output
          · exact whole_outputDeclarations s ins output
          · cases output
      · split at tail
        · exact whole_psTail s.tempCount ins tail
        · cases tail
    · rw [List.mem_singleton.mp original]
      exact (wholes p.2 listed).retouch size
  · cases behind

omit member in
theorem psBlocks_declared (output : s.firstOutput ≠ 0)
    (executable : ¬(s.tempAt = 0 ∧ s.firstExecutable = 0)) :
    ((placed 2 program).flatMap fun p =>
      (psBlock inputs s (p.1, widen inputs p.2)).declared).Perm (psDeclarations inputs program) := by
  have starts : ((placed 2 program).map Prod.fst).Nodup := placed_starts_nodup wholes
  have inputs_once := flatMap_once (x := inputDeclarations inputs s) starts
    (scanned.output.resolve_left output)
  have output_once := flatMap_once (x := outputDeclarations s) starts
    (scanned.outputPlace_mem executable)
  rw [scanned.declarations_eq]
  conv_rhs => rw [← inputs_once, ← output_once]
  refine .trans (.of_eq ?_) (List.flatMap_append_perm ..).symm
  refine congrArg (List.flatMap · (placed 2 program)) (funext fun p => ?_)
  exact List.append_nil _

end

theorem patchPs_preserves {bytes out : Bytes}
    (patched : patchPsProgram bytes inputs = .ok out) :
    ∃ program blocks, Preserves (programWords bytes) (programWords out) (retouch inputs) program
      (psDeclarations inputs program) (psTail inputs (tempsDeclared program)) blocks := by
  unfold patchPsProgram at patched
  obtain ⟨s, scanned, patched⟩ := bind_eq_ok.mp patched
  obtain ⟨output, patched⟩ := check_eq_ok.mp patched
  obtain ⟨-, patched⟩ := check_eq_ok.mp patched
  obtain ⟨-, patched⟩ := check_eq_ok.mp patched
  obtain ⟨executable, patched⟩ := check_eq_ok.mp patched
  obtain ⟨e, emitted, patched⟩ := bind_eq_ok.mp patched
  obtain ⟨-, patched⟩ := check_eq_ok.mp patched
  cases patched
  generalize programWords bytes = t at scanned emitted
  obtain ⟨program, rest, wholes, folded⟩ := walk_splits
    (fun _ _ _ _ _ stepped => scanPs_frame stepped) scanned
    (by dsimp only; rw [List.length_drop]; omega)
  have facts := scanned_of_folded folded
  have program_some : program ≠ [] := by
    rintro rfl
    cases facts.output.resolve_left output
  have layout := layout_of_drop rest program_some wholes
  have widened : s.t = [t.getD 0 0, t.getD 1 0] ++ (program.map (widen inputs)).flatten :=
    scan_tokens layout folded
  have widened_whole : ∀ ins ∈ program.map (widen inputs), Whole ins := by
    intro ins member
    obtain ⟨original, inside, rfl⟩ := List.mem_map.mp member
    exact (wholes original inside).widen
  have first : s.t.getD 0 0 = t.getD 0 0 := by
    rw [widened]
    rfl
  refine ⟨program, (placed 2 program).map fun p => psBlock inputs s (p.1, widen inputs p.2),
    preserves_of_blocks layout wholes ?_ ?_ ?_ ?_ ?_ ?_⟩
  · have words := walk_emits PsEmit.out (emitPs_eq s) widened widened_whole emitted
    rw [placed_map length_widen, List.map_map, first] at words
    exact words
  · intro b member
    obtain ⟨p, inside, rfl⟩ := List.mem_map.mp member
    exact psBlock_whole wholes facts inside
  · conv_rhs => rw [← placed_map_snd 2 program]
    rw [List.map_map, List.map_map]
    exact List.map_congr_left fun p inside => psBlock_original wholes facts inside
  · rw [List.flatMap_map]
    exact psBlocks_declared wholes facts output executable
  · intro b member
    obtain ⟨p, inside, rfl⟩ := List.mem_map.mp member
    rw [psBlock_tail wholes facts inside, psBlock_original wholes facts inside, retouch_opcode,
      facts.tempCount_eq]
  · intro ins member n written
    rw [writtenTemp_psTail member written]
    exact UInt32.le_refl _

end

/-- Every program that is patched is the program it was, with whole instructions added:
a vertex program has one output declaration more and a pixel program one output
declaration, the inputs that it lacked and a temporary. A program that is declined gives
no bytes. -/
theorem patched_programs_preserved (slotRegister : UInt32) (inputs : EngineVelocityInputs) :
    (∀ bytes out, patchVsProgram bytes slotRegister = .ok out →
      ∃ program blocks, Preserves (programWords bytes) (programWords out) id program
        [vsDeclaration slotRegister] [vsMove slotRegister] blocks) ∧
    (∀ bytes out, patchPsProgram bytes inputs = .ok out →
      ∃ program blocks, Preserves (programWords bytes) (programWords out) (retouch inputs) program
        (psDeclarations inputs program) (psTail inputs (tempsDeclared program)) blocks) ∧
    (∀ computeHashRetail data, let answer := engineVelocityPatchVs computeHashRetail data inputs
      answer.patched = false → answer.output = []) ∧
    ∀ computeHashRetail data, let answer := engineVelocityPatchPs computeHashRetail data inputs
      answer.patched = false → answer.output = [] := by
  have declined (r : Result Bytes) : (answer r).patched = false → (answer r).output = [] := by
    cases r with
    | error reason => exact fun _ => rfl
    | ok output => nofun
  refine ⟨fun _ _ => patchVs_preserves, fun _ _ => patchPs_preserves, ?_, ?_⟩
  · intro computeHashRetail data
    unfold engineVelocityPatchVs
    split
    · exact declined _
    · exact declined _
  · intro computeHashRetail data
    unfold engineVelocityPatchPs
    split
    · exact declined _
    · exact declined _

/-- `dcl_input v0.x`, `dcl_output o0`, `dcl_temps 1` and two `ret`s. -/
def smallVs : List UInt32 :=
  [0x00010050, 12, 0x0300005F, 0x00101012, 0, 0x03000065, 0x001020F2, 0, 0x02000068, 1,
    0x0100003E, 0x0100003E]

/-- `dcl_input_ps constant v1.x`, `dcl_input_ps_siv v0.xy, position`, `dcl_output o0`,
`dcl_temps 2` and two `ret`s. -/
def smallPs : List UInt32 :=
  [0x00000050, 16, 0x03000862, 0x00101012, 1, 0x04002064, 0x00101032, 0, 1,
    0x03000065, 0x001020F2, 0, 0x02000068, 2, 0x0100003E, 0x0100003E]

def smallInputs : EngineVelocityInputs :=
  { identityRegister := 1, identityComponent := 0, positionRegister := 0 }

def patchedVs : List UInt32 :=
  [0x00010050, 25, 0x0300005F, 0x00101012, 0, 0x03000065, 0x001020F2, 0, 0x03000065, 0x00102012, 1,
    0x02000068, 1, 0x05000036, 0x00102012, 1, 0x0010100A, 0, 0x0100003E,
    0x05000036, 0x00102012, 1, 0x0010100A, 0, 0x0100003E]

def patchedPs : List UInt32 :=
  [0x00000050, 71, 0x03000862, 0x00101012, 1, 0x04002064, 0x00101072, 0, 1,
    0x03000065, 0x001020F2, 0, 0x03000065, 0x00102032, 6, 0x02000068, 3,
    0x07000001, 0x00100012, 2, 0x0010100A, 1, 0x00004001, 0x007fffff,
    0x09000023, 0x00100012, 2, 0x0010000A, 2, 0x00004001, 2, 0x00004001, 1,
    0x05000056, 0x00102012, 6, 0x0010000A, 2, 0x05000036, 0x00102022, 6, 0x0010102A, 0, 0x0100003E,
    0x07000001, 0x00100012, 2, 0x0010100A, 1, 0x00004001, 0x007fffff,
    0x09000023, 0x00100012, 2, 0x0010000A, 2, 0x00004001, 2, 0x00004001, 1,
    0x05000056, 0x00102012, 6, 0x0010000A, 2, 0x05000036, 0x00102022, 6, 0x0010102A, 0, 0x0100003E]

theorem patched_programs_preserved_small :
    (∃ program blocks, Preserves smallVs patchedVs id program [vsDeclaration 1] [vsMove 1] blocks) ∧
    ∃ program blocks, Preserves smallPs patchedPs (retouch smallInputs) program
      (psDeclarations smallInputs program) (psTail smallInputs (tempsDeclared program)) blocks := by
  have preserved := patched_programs_preserved 1 smallInputs
  have vs := preserved.1 (bytesOf smallVs) (bytesOf patchedVs) (by decide +kernel)
  have ps := preserved.2.1 (bytesOf smallPs) (bytesOf patchedPs) (by decide +kernel)
  unfold programWords at vs ps
  rw [wordsOf_bytesOf, wordsOf_bytesOf] at vs ps
  exact ⟨vs, ps⟩

def inputsDeclared (program : List Instruction) : Nat :=
  program.countP fun ins => kOpDclInput ≤ ins.opcode && ins.opcode ≤ kOpDclInputPsSiv

/-- A patch may add an output declaration without any input declaration: a vertex program
has the input that it copies, and a pixel program may have both of its inputs. -/
theorem output_declared_alone :
    patchVsProgram (bytesOf smallVs) 1 = .ok (bytesOf patchedVs) ∧
    (instructionsOf smallVs).map inputsDeclared = .ok 1 ∧
    (instructionsOf patchedVs).map inputsDeclared = .ok 1 ∧
    patchPsProgram (bytesOf smallPs) smallInputs = .ok (bytesOf patchedPs) ∧
    (instructionsOf smallPs).map inputsDeclared = .ok 2 ∧
    (instructionsOf patchedPs).map inputsDeclared = .ok 2 := by
  decide +kernel

end EdvrPatch.Dxbc
