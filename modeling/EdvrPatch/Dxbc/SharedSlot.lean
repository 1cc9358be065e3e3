import EdvrPatch.Dxbc.DeriveInputs
import EdvrPatch.Dxbc.SlotDeclarations
import EdvrPatch.Dxbc.ContainerRoundTrip

/-! The slot's register in a patched vertex shader and in a patched pixel shader. Both
patches put the same semantic at the same register, which nothing else there has. -/
namespace EdvrPatch.Dxbc

open Lib

/-! ### Signatures -/

variable {elements : List SignatureElement}

theorem addElements_encodable {result bytes : Bytes} {i : Nat}
    (added : addElements result i elements = .ok bytes) : ∀ e ∈ elements, e.Encodable := by
  induction elements generalizing result i with
  | nil => nofun
  | cons first rest ih =>
    obtain ⟨next, here, added⟩ := bind_eq_ok.mp added
    unfold addElement at here
    obtain ⟨lawful, -⟩ := check_eq_ok.mp here
    push Not at lawful
    obtain ⟨named, short, low⟩ := lawful
    intro e member
    rcases List.mem_cons.mp member with rfl | later
    · exact ⟨named, short, UInt32.not_le.mp low⟩
    · exact ih added e later

theorem reads_of_makeSignature {bytes : Bytes} (made : makeSignature elements = .ok bytes)
    (plain : ∀ e ∈ elements, 0 ∉ e.name) :
    parseSignature bytes = .ok elements ∧ ∀ e ∈ elements, e.registerIndex < 32 := by
  have encoded := made
  unfold makeSignature at made
  obtain ⟨counted, made⟩ := check_eq_ok.mp made
  push Not at counted
  have encodable := addElements_encodable made
  rw [makeSignature_eq counted.1 counted.2 encodable] at encoded
  cases encoded
  exact ⟨parseSignature_signatureBytes counted.2 encodable plain,
    fun e member => (encodable e member).register⟩

def vsSlot (inputs : EngineVelocityInputs) : SignatureElement :=
  { name := ascii kEngineVelocitySlotSemantic, componentType := 1
    registerIndex := inputs.identityRegister, masks := 0x0E01 }

def psSlot (inputs : EngineVelocityInputs) : SignatureElement :=
  { name := ascii kEngineVelocitySlotSemantic, componentType := 1
    registerIndex := inputs.identityRegister, masks := 0x0101 }

variable {l : List SignatureElement}

theorem filter_sortByRegister {slot : SignatureElement} {p : SignatureElement → Bool}
    (only : l.filter p = [slot]) : (sortByRegister l).filter p = [slot] := by
  rw [← List.perm_singleton, ← only]
  exact (List.mergeSort_perm l _).filter p

variable {e : SignatureElement}

theorem mem_sortByRegister : e ∈ sortByRegister l ↔ e ∈ l :=
  (List.mergeSort_perm l _).mem_iff

theorem filter_absent {r : UInt32} (absent : ∀ e ∈ l, e.registerIndex ≠ r) :
    l.filter (fun e => e.registerIndex = r) = [] := by
  rw [List.filter_eq_nil_iff]
  intro e member
  simpa using absent e member

/-- A signature that has got the slot, at a register that no other element has. -/
structure GainsSlot (slot : SignatureElement) (bytes bytes' : Bytes)
    (elements elements' : List SignatureElement) : Prop where
  old : parseSignature bytes = .ok elements
  new : parseSignature bytes' = .ok elements'
  absent : ∀ e ∈ elements, e.registerIndex ≠ slot.registerIndex
  only : elements'.filter (fun e => e.registerIndex = slot.registerIndex) = [slot]
  low : ∀ e ∈ elements', e.registerIndex < 32
  kept : ∀ e ∈ elements, ∃ e' ∈ elements', e'.name = e.name ∧ e'.registerIndex = e.registerIndex

theorem slotSemantic_plain : 0 ∉ ascii kEngineVelocitySlotSemantic := by
  decide

section

variable {inputs : EngineVelocityInputs} {bytes bytes' : Bytes}

theorem vsSignature_gains {elements : List SignatureElement}
    (parsed : parseSignature bytes = .ok elements)
    (free : ¬elements.any (fun e => e.registerIndex = inputs.identityRegister) = true)
    (made : makeSignature (sortByRegister (elements ++ [vsSlot inputs])) = .ok bytes') :
    GainsSlot (vsSlot inputs) bytes bytes' elements
      (sortByRegister (elements ++ [vsSlot inputs])) := by
  have absent : ∀ e ∈ elements, e.registerIndex ≠ inputs.identityRegister := by
    simpa using free
  obtain ⟨reads, low⟩ := reads_of_makeSignature made fun e member => by
    rcases List.mem_append.mp (mem_sortByRegister.mp member) with old | new
    · exact ((parseSignature_produces parsed).2 e old).2
    · rw [List.mem_singleton.mp new]
      exact slotSemantic_plain
  refine ⟨parsed, reads, absent, filter_sortByRegister ?_, low, fun e member =>
    ⟨e, mem_sortByRegister.mpr (List.mem_append_left _ member), rfl, rfl⟩⟩
  rw [List.filter_append]
  change elements.filter (fun e => e.registerIndex = inputs.identityRegister) ++ _ = _
  rw [filter_absent absent]
  simp [vsSlot]

theorem patchPsInputs_keeps (own : inputs.slotFromVsPatch = true) {elements kept : List SignatureElement}
    {identity position : Bool} (patched : patchPsInputs inputs elements = .ok (identity, position, kept)) :
    (∀ e ∈ elements, e.registerIndex ≠ inputs.identityRegister) ∧
      kept.map (fun e => (e.name, e.registerIndex)) =
        elements.map fun e => (e.name, e.registerIndex) := by
  induction elements generalizing identity position kept with
  | nil =>
    cases patched
    exact ⟨nofun, rfl⟩
  | cons first rest ih =>
    unfold patchPsInputs at patched
    obtain ⟨free, patched⟩ := check_eq_ok.mp patched
    dsimp only at patched
    obtain ⟨-, patched⟩ := check_eq_ok.mp patched
    obtain ⟨⟨identity', position', later⟩, here, patched⟩ := bind_eq_ok.mp patched
    cases patched
    obtain ⟨absent, same⟩ := ih here
    refine ⟨fun e member => ?_, ?_⟩
    · rcases List.mem_cons.mp member with rfl | later
      · exact fun register => free ⟨register, own⟩
      · exact absent e later
    · rw [List.map_cons, List.map_cons, same]
      congr 1
      split <;> rfl

theorem psSignature_gains (own : inputs.slotFromVsPatch = true)
    (apart : inputs.positionRegister ≠ inputs.identityRegister)
    (patched : patchPsIsgn inputs bytes = .ok bytes') :
    ∃ elements elements', GainsSlot (psSlot inputs) bytes bytes' elements elements' := by
  obtain ⟨elements, parsed, patched⟩ := bind_eq_ok.mp patched
  obtain ⟨⟨identity, position, kept⟩, here, patched⟩ := bind_eq_ok.mp patched
  obtain ⟨-, patched⟩ := check_eq_ok.mp patched
  obtain ⟨-, made⟩ := check_eq_ok.mp patched
  obtain ⟨absent, same⟩ := patchPsInputs_keeps own here
  rw [if_pos own] at made
  have mapped (e : SignatureElement) (member : e ∈ kept) : ∃ old ∈ elements,
      old.name = e.name ∧ old.registerIndex = e.registerIndex := by
    have inside : (e.name, e.registerIndex) ∈ elements.map fun e => (e.name, e.registerIndex) := by
      rw [← same]
      exact List.mem_map.mpr ⟨e, member, rfl⟩
    obtain ⟨old, listed, pair⟩ := List.mem_map.mp inside
    exact ⟨old, listed, congrArg Prod.fst pair, congrArg Prod.snd pair⟩
  have absent' : ∀ e ∈ kept, e.registerIndex ≠ inputs.identityRegister := by
    intro e member
    obtain ⟨old, listed, -, register⟩ := mapped e member
    rw [← register]
    exact absent old listed
  obtain ⟨reads, low⟩ := reads_of_makeSignature made fun e member => by
    rcases List.mem_append.mp (mem_sortByRegister.mp member) with front | placed_
    · rcases List.mem_append.mp front with old | new
      · obtain ⟨old, listed, name, -⟩ := mapped e old
        rw [← name]
        exact ((parseSignature_produces parsed).2 old listed).2
      · rw [List.mem_singleton.mp new]
        exact slotSemantic_plain
    · split at placed_
      · cases placed_
      · rw [List.mem_singleton.mp placed_]
        exact (by decide : 0 ∉ ascii "SV_Position")
  refine ⟨elements, _, parsed, reads, absent, filter_sortByRegister ?_, low, fun e member => ?_⟩
  · rw [List.filter_append, List.filter_append]
    change kept.filter (fun e => e.registerIndex = inputs.identityRegister) ++ _ ++ _ = _
    rw [filter_absent absent']
    split <;> simp [psSlot, apart]
  · have inside : (e.name, e.registerIndex) ∈ kept.map fun e => (e.name, e.registerIndex) := by
      rw [same]
      exact List.mem_map.mpr ⟨e, member, rfl⟩
    obtain ⟨e', listed, pair⟩ := List.mem_map.mp inside
    exact ⟨e', mem_sortByRegister.mpr (List.mem_append_left _ (List.mem_append_left _ listed)),
      congrArg Prod.fst pair, congrArg Prod.snd pair⟩

end

/-! ### Chunks -/

variable {chunks : List Chunk}

theorem mapChunks_only {change : ChunksSeen → Chunk → Result (ChunksSeen × Chunk)}
    {p : Chunk → Bool} (flag : ChunksSeen → Bool) {R : Chunk → Chunk → Prop}
    (kind : ∀ seen c seen' c', change seen c = .ok (seen', c') → p c' = p c)
    (hit : ∀ seen c seen' c', change seen c = .ok (seen', c') → p c = true → flag seen = false ∧ flag seen' = true ∧ R c c')
    (miss : ∀ seen c seen' c', change seen c = .ok (seen', c') → p c = false → flag seen' = flag seen)
    {seen seen' : ChunksSeen} {chunks' : List Chunk}
    (mapped : mapChunks change seen chunks = .ok (seen', chunks')) :
    (flag seen = true → flag seen' = true ∧ chunks.filter p = [] ∧ chunks'.filter p = []) ∧
    (flag seen = false → flag seen' = true →
      ∃ c c', chunks.filter p = [c] ∧ chunks'.filter p = [c'] ∧ R c c') := by
  induction chunks generalizing seen chunks' with
  | nil =>
    cases mapped
    exact ⟨fun on => ⟨on, rfl, rfl⟩, fun off on => by rw [off] at on; cases on⟩
  | cons c rest ih =>
    rw [mapChunks] at mapped
    obtain ⟨⟨next, c'⟩, here, mapped⟩ := bind_eq_ok.mp mapped
    obtain ⟨⟨last, rest'⟩, later, same⟩ := bind_eq_ok.mp mapped
    cases same
    obtain ⟨done, open_⟩ := ih later
    have same := kind _ _ _ _ here
    cases kindly : p c with
    | true =>
      obtain ⟨off, on, related⟩ := hit _ _ _ _ here kindly
      obtain ⟨-, none_, none'⟩ := done on
      refine ⟨fun already => ?_, fun _ _ => ⟨c, c', ?_, ?_, related⟩⟩
      · rw [off] at already
        cases already
      · rw [List.filter_cons_of_pos kindly, none_]
      · rw [List.filter_cons_of_pos (same.trans kindly), none']
    | false =>
      have flagged := miss _ _ _ _ here kindly
      rw [flagged] at done open_
      rw [List.filter_cons_of_neg (by simp [kindly]),
        List.filter_cons_of_neg (by simp [same, kindly])]
      exact ⟨done, open_⟩

def isTagged (tag : UInt32) (c : Chunk) : Bool :=
  c.tag = tag

def isProgramChunk (c : Chunk) : Bool :=
  isProgram c.tag

section

variable {inputs : EngineVelocityInputs} {seen seen' : ChunksSeen} {c c' : Chunk}

theorem osgn_not_program : isProgram kTagOsgn = false := by decide

theorem isgn_not_program : isProgram kTagIsgn = false := by decide

/-- A patch that changes the signature of one tag and the program, each at most once. -/
def Patches (change : ChunksSeen → Chunk → Result (ChunksSeen × Chunk)) (flag : ChunksSeen → Bool)
    (tag : UInt32) (signature program : Chunk → Chunk → Prop) : Prop :=
  ∀ seen c seen' c', change seen c = .ok (seen', c') → c'.tag = c.tag ∧
    (c.tag = tag ∧ flag seen = false ∧ flag seen' = true ∧ seen'.program = seen.program ∧
        signature c c' ∨
      isProgram c.tag = true ∧ seen.program = false ∧ seen'.program = true ∧
        flag seen' = flag seen ∧ program c c' ∨
      c.tag ≠ tag ∧ isProgram c.tag = false ∧ flag seen' = flag seen ∧
        seen'.program = seen.program)

theorem patchVsChunk_patches : Patches (patchVsChunk inputs) ChunksSeen.osgn kTagOsgn
    (fun c c' => ∃ elements elements', GainsSlot (vsSlot inputs) c.bytes c'.bytes elements elements')
    (fun c c' => patchVsProgram c.bytes inputs.identityRegister = .ok c'.bytes) := by
  intro seen c seen' c' changed
  unfold patchVsChunk at changed
  split at changed
  · rename_i tag
    obtain ⟨fresh, changed⟩ := check_eq_ok.mp changed
    obtain ⟨elements, parsed, changed⟩ := bind_eq_ok.mp changed
    obtain ⟨free, changed⟩ := check_eq_ok.mp changed
    obtain ⟨bytes', made, same⟩ := bind_eq_ok.mp changed
    cases same
    exact ⟨rfl, .inl ⟨tag, by simpa using fresh, rfl, rfl, elements, _,
      vsSignature_gains parsed free made⟩⟩
  · rename_i other
    split at changed
    · rename_i program
      obtain ⟨fresh, changed⟩ := check_eq_ok.mp changed
      obtain ⟨bytes', made, same⟩ := bind_eq_ok.mp changed
      cases same
      exact ⟨rfl, .inr (.inl ⟨program, by simpa using fresh, rfl, rfl, made⟩)⟩
    · rename_i nothing
      cases changed
      exact ⟨rfl, .inr (.inr ⟨other, by simpa using nothing, rfl, rfl⟩)⟩

theorem patchPsChunk_patches : Patches (patchPsChunk inputs) ChunksSeen.isgn kTagIsgn
    (fun c c' => patchPsIsgn inputs c.bytes = .ok c'.bytes)
    (fun c c' => patchPsProgram c.bytes inputs = .ok c'.bytes) := by
  intro seen c seen' c' changed
  unfold patchPsChunk at changed
  split at changed
  · rename_i tag
    obtain ⟨fresh, changed⟩ := check_eq_ok.mp changed
    obtain ⟨bytes', made, same⟩ := bind_eq_ok.mp changed
    cases same
    exact ⟨rfl, .inl ⟨tag, by simpa using fresh, rfl, rfl, made⟩⟩
  · rename_i other
    split at changed
    · rename_i tag
      obtain ⟨-, changed⟩ := check_eq_ok.mp changed
      obtain ⟨bytes', -, same⟩ := bind_eq_ok.mp changed
      cases same
      exact ⟨rfl, .inr (.inr ⟨other, by rw [tag]; exact osgn_not_program, rfl, rfl⟩)⟩
    · split at changed
      · rename_i program
        obtain ⟨fresh, changed⟩ := check_eq_ok.mp changed
        obtain ⟨bytes', made, same⟩ := bind_eq_ok.mp changed
        cases same
        exact ⟨rfl, .inr (.inl ⟨program, by simpa using fresh, rfl, rfl, made⟩)⟩
      · rename_i nothing
        cases changed
        exact ⟨rfl, .inr (.inr ⟨other, by simpa using nothing, rfl, rfl⟩)⟩

section

variable {chunks chunks' : List Chunk} {flag : ChunksSeen → Bool} {tag : UInt32}
  {signature program : Chunk → Chunk → Prop}
  {change : ChunksSeen → Chunk → Result (ChunksSeen × Chunk)}

theorem Patches.signatures (patches : Patches change flag tag signature program)
    (other : isProgram tag = false) (fresh : flag {} = false)
    (mapped : mapChunks change {} chunks = .ok (seen', chunks')) (held : flag seen' = true) :
    ∃ c c', chunks.filter (isTagged tag) = [c] ∧ chunks'.filter (isTagged tag) = [c'] ∧
      signature c c' := by
  refine (mapChunks_only flag ?_ ?_ ?_ mapped).2 fresh held
  · intro seen c seen' c' changed
    unfold isTagged
    rw [(patches _ _ _ _ changed).1]
  · intro seen c seen' c' changed tagged
    have isTag : c.tag = tag := by simpa [isTagged] using tagged
    obtain ⟨-, ⟨-, off, on, -, patched⟩ | ⟨kind, -⟩ | ⟨differs, -⟩⟩ := patches _ _ _ _ changed
    · exact ⟨off, on, patched⟩
    · rw [isTag, other] at kind
      cases kind
    · exact absurd isTag differs
  · intro seen c seen' c' changed untagged
    obtain ⟨-, ⟨isTag, -⟩ | ⟨-, -, -, same, -⟩ | ⟨-, -, same, -⟩⟩ := patches _ _ _ _ changed
    · simp [isTagged, isTag] at untagged
    · exact same
    · exact same

theorem Patches.programs (patches : Patches change flag tag signature program)
    (other : isProgram tag = false)
    (mapped : mapChunks change {} chunks = .ok (seen', chunks')) (held : seen'.program = true) :
    ∃ c c', chunks.filter isProgramChunk = [c] ∧ chunks'.filter isProgramChunk = [c'] ∧
      program c c' := by
  refine (mapChunks_only ChunksSeen.program ?_ ?_ ?_ mapped).2 rfl held
  · intro seen c seen' c' changed
    unfold isProgramChunk
    rw [(patches _ _ _ _ changed).1]
  · intro seen c seen' c' changed kind
    unfold isProgramChunk at kind
    obtain ⟨-, ⟨isTag, -⟩ | ⟨-, off, on, -, patched⟩ | ⟨-, differs, -⟩⟩ := patches _ _ _ _ changed
    · rw [isTag, other] at kind
      cases kind
    · exact ⟨off, on, patched⟩
    · cases differs.symm.trans kind
  · intro seen c seen' c' changed differs
    obtain ⟨-, ⟨-, -, -, same, -⟩ | ⟨kind, -⟩ | ⟨-, -, -, same⟩⟩ := patches _ _ _ _ changed
    · exact same
    · cases kind.symm.trans differs
    · exact same

end

end

/-! ### Shaders -/

/-- The signature of a tag and the program that stand in a list of chunks. -/
structure Holds (chunks : List Chunk) (tag : UInt32) (elements : List SignatureElement)
    (program : List Instruction) : Prop where
  signature : ∃ c, chunks.filter (isTagged tag) = [c] ∧ parseSignature c.bytes = .ok elements
  program : ∃ c, chunks.filter isProgramChunk = [c] ∧
    instructionsOf (programWords c.bytes) = .ok program

/-- A stage of the pipeline: its program type, the signature and the file of registers
that the slot goes to, and the opcodes of the declarations that its patch reads. -/
structure Stage where
  programType : UInt32
  tag : UInt32
  file : UInt32
  first : UInt32
  last : UInt32

def vertexStage : Stage := ⟨kVs50, kTagOsgn, 2, kOpDclOutput, kOpDclOutputSiv⟩

def pixelStage : Stage := ⟨kPs50, kTagIsgn, 1, kOpDclInputPs, kOpDclInputPsSiv⟩

/-- A shader that was patched: its signature has got the slot, at a register that no
other element has, and its program a declaration of it. No other declaration is of that
register, where the old ones are plain or of registers of the signature. -/
def SlotAdded (computeHashRetail : Bytes → Vector UInt8 16) (stage : Stage) (slot : SignatureElement)
    (declaration : Instruction) (input output : Bytes) : Prop :=
  ∃ chunks chunks' elements elements' program program',
    parseContainer computeHashRetail input stage.programType = .ok chunks ∧
    Holds chunks stage.tag elements program ∧
    makeContainer computeHashRetail chunks' = .ok output ∧
    Holds chunks' stage.tag elements' program' ∧
    elements'.filter (fun e => e.registerIndex = slot.registerIndex) = [slot] ∧
    (∀ e ∈ elements, ∃ e' ∈ elements', e'.name = e.name ∧ e'.registerIndex = e.registerIndex) ∧
    (∀ e ∈ elements', e.registerIndex < 32) ∧
    ((∀ ins ∈ program, isPlain stage.first stage.last ins = true ∨
        Listed stage.file elements ins) →
      program'.filter (declares stage.file slot.registerIndex) = [declaration])

section

variable {computeHashRetail : Bytes → Vector UInt8 16} {inputs : EngineVelocityInputs}

theorem answer_patched {r : Result Bytes} (patched : (answer r).patched = true) :
    r = .ok (answer r).output := by
  cases r with
  | error reason => cases patched
  | ok output => rfl

theorem patchVs_adds {data : Bytes}
    (patched : (engineVelocityPatchVs computeHashRetail data inputs).patched = true) :
    inputs.slotFromVsPatch = true ∧
      SlotAdded computeHashRetail vertexStage (vsSlot inputs) (vsDeclaration inputs.identityRegister)
        data (engineVelocityPatchVs computeHashRetail data inputs).output := by
  unfold engineVelocityPatchVs at patched ⊢
  split at patched
  · cases patched
  rename_i lawful
  rw [if_neg lawful]
  push Not at lawful
  refine ⟨by simpa using lawful.1, ?_⟩
  have done := answer_patched patched
  generalize (answer _).output = output at done
  obtain ⟨chunks, parsed, done⟩ := bind_eq_ok.mp done
  obtain ⟨⟨seen, chunks'⟩, mapped, done⟩ := bind_eq_ok.mp done
  obtain ⟨held, made⟩ := check_eq_ok.mp done
  have held : seen.osgn = true ∧ seen.program = true := by simpa using held
  obtain ⟨c, c', only, only', elements, elements', gains⟩ :=
    patchVsChunk_patches.signatures osgn_not_program rfl mapped held.1
  obtain ⟨code, code', onlyCode, onlyCode', patchedCode⟩ :=
    patchVsChunk_patches.programs osgn_not_program mapped held.2
  obtain ⟨program, program', reads, reads', declared⟩ := patchVs_declares patchedCode gains.absent
  exact ⟨chunks, chunks', elements, elements', program, program', parsed,
    ⟨⟨c, only, gains.old⟩, ⟨code, onlyCode, reads⟩⟩, made,
    ⟨⟨c', only', gains.new⟩, ⟨code', onlyCode', reads'⟩⟩, gains.only, gains.kept,
    gains.low, declared⟩

theorem patchPs_adds {data : Bytes} (own : inputs.slotFromVsPatch = true)
    (patched : (engineVelocityPatchPs computeHashRetail data inputs).patched = true) :
    SlotAdded computeHashRetail pixelStage (psSlot inputs) (slotDeclaration inputs) data
      (engineVelocityPatchPs computeHashRetail data inputs).output := by
  unfold engineVelocityPatchPs at patched ⊢
  split at patched
  · cases patched
  rename_i lawful
  rw [if_neg lawful]
  push Not at lawful
  have apart : inputs.positionRegister ≠ inputs.identityRegister := fun same =>
    lawful.2.2.2 same.symm
  have done := answer_patched patched
  generalize (answer _).output = output at done
  obtain ⟨chunks, parsed, done⟩ := bind_eq_ok.mp done
  obtain ⟨⟨seen, chunks'⟩, mapped, done⟩ := bind_eq_ok.mp done
  obtain ⟨held, made⟩ := check_eq_ok.mp done
  have held : seen.isgn = true ∧ seen.osgn = true ∧ seen.program = true := by simpa using held
  obtain ⟨c, c', only, only', patchedInputs⟩ :=
    patchPsChunk_patches.signatures isgn_not_program rfl mapped held.1
  obtain ⟨elements, elements', gains⟩ := psSignature_gains own apart patchedInputs
  obtain ⟨code, code', onlyCode, onlyCode', patchedCode⟩ :=
    patchPsChunk_patches.programs isgn_not_program mapped held.2.2
  obtain ⟨program, program', reads, reads', declared⟩ :=
    patchPs_declares own apart patchedCode gains.absent
  exact ⟨chunks, chunks', elements, elements', program, program', parsed,
    ⟨⟨c, only, gains.old⟩, ⟨code, onlyCode, reads⟩⟩, made,
    ⟨⟨c', only', gains.new⟩, ⟨code', onlyCode', reads'⟩⟩, gains.only, gains.kept,
    gains.low, declared⟩

end

/-! ### The derived register -/

variable {d d' : Derivation}

theorem deriveOutput_max (derived : deriveOutput d e = .ok d') :
    d'.maxOutput = max d.maxOutput e.registerIndex ∧
      d'.output.slotFromVsPatch = d.output.slotFromVsPatch := by
  unfold deriveOutput at derived
  obtain ⟨d₁, identity, position⟩ := bind_eq_ok.mp derived
  have first : d₁.maxOutput = max d.maxOutput e.registerIndex ∧
      d₁.output.slotFromVsPatch = d.output.slotFromVsPatch := by
    unfold deriveIdentity at identity
    split at identity
    · split at identity
      · cases identity
      · rw [← Except.ok.inj identity]
        exact ⟨rfl, rfl⟩
    · rw [← Except.ok.inj identity]
      exact ⟨rfl, rfl⟩
  rw [← first.1, ← first.2]
  unfold derivePosition at position
  split at position
  · split at position
    · cases position
    · rw [← Except.ok.inj position]
      exact ⟨rfl, rfl⟩
  · rw [← Except.ok.inj position]
    exact ⟨rfl, rfl⟩

/-- What a loop makes of the greatest register, and of any bound on the registers that
it comes across. -/
structure Grows (met : SignatureElement → Prop) (start maxOutput : UInt32) : Prop where
  above : start.toNat ≤ maxOutput.toNat
  covers : ∀ e, met e → e.registerIndex.toNat ≤ maxOutput.toNat
  bounded : ∀ n, start.toNat < n → (∀ e, met e → e.registerIndex.toNat < n) → maxOutput.toNat < n

theorem Grows.refl (a : UInt32) : Grows (fun _ => False) a a :=
  ⟨Nat.le_refl _, nofun, fun _ below _ => below⟩

theorem Grows.trans {met met' both : SignatureElement → Prop} {a b c : UInt32} (first : Grows met a b)
    (second : Grows met' b c) (either : ∀ e, both e ↔ met e ∨ met' e) : Grows both a c := by
  refine ⟨Nat.le_trans first.above second.above, fun e here => ?_, fun n below all => ?_⟩
  · rcases (either e).mp here with here | here
    · exact Nat.le_trans (first.covers e here) second.above
    · exact second.covers e here
  · exact second.bounded n (first.bounded n below fun e here => all e ((either e).mpr (.inl here)))
      fun e here => all e ((either e).mpr (.inr here))

theorem deriveOutput_grows (derived : deriveOutput d e = .ok d') :
    Grows (· = e) d.maxOutput d'.maxOutput := by
  rw [(deriveOutput_max derived).1]
  refine ⟨?_, ?_, fun n below all => ?_⟩
  · rw [UInt32.toNat_max]
    exact Nat.le_max_left ..
  · rintro _ rfl
    rw [UInt32.toNat_max]
    exact Nat.le_max_right ..
  · rw [UInt32.toNat_max]
    exact Nat.max_lt.mpr ⟨below, all e rfl⟩

theorem deriveOutputs_grow (derived : elements.foldlM deriveOutput d = .ok d') :
    Grows (· ∈ elements) d.maxOutput d'.maxOutput := by
  induction elements generalizing d with
  | nil =>
    cases derived
    simpa using Grows.refl _
  | cons e rest ih =>
    obtain ⟨next, here, derived⟩ := bind_eq_ok.mp derived
    exact (deriveOutput_grows here).trans (ih derived) fun e' => List.mem_cons

def OutputIn (chunks : List Chunk) (e : SignatureElement) : Prop :=
  ∃ c ∈ chunks, c.tag = kTagOsgn ∧ ∃ elements, parseSignature c.bytes = .ok elements ∧ e ∈ elements

theorem foldl_deriveInput (elements : List SignatureElement) (d : Derivation) :
    (elements.foldl deriveInput d).maxOutput = d.maxOutput := by
  induction elements generalizing d with
  | nil => rfl
  | cons e rest ih =>
    rw [List.foldl_cons, ih]
    unfold deriveInput
    split <;> rfl

variable {c : Chunk}

theorem deriveChunk_grows (derived : deriveChunk d c = .ok d') :
    Grows (OutputIn [c]) d.maxOutput d'.maxOutput := by
  have silent (other : c.tag ≠ kTagOsgn) : Grows (OutputIn [c]) d.maxOutput d.maxOutput := by
    refine ⟨Nat.le_refl _, ?_, fun _ below _ => below⟩
    rintro e ⟨c', member, tag, -⟩
    rw [List.mem_singleton.mp member] at tag
    exact absurd tag other
  unfold deriveChunk at derived
  split at derived
  · rename_i program
    cases derived
    refine silent fun tag => ?_
    rw [tag, osgn_not_program] at program
    cases program
  split at derived
  · rename_i tag
    obtain ⟨-, derived⟩ := check_eq_ok.mp derived
    obtain ⟨elements, -, derived⟩ := bind_eq_ok.mp derived
    rw [← Except.ok.inj derived, foldl_deriveInput]
    exact silent (by rw [tag]; decide)
  split at derived
  · rename_i tag
    obtain ⟨-, derived⟩ := check_eq_ok.mp derived
    obtain ⟨elements, parsed, derived⟩ := bind_eq_ok.mp derived
    have grows := deriveOutputs_grow derived
    have same : OutputIn [c] = (· ∈ elements) := by
      funext e
      refine propext ⟨?_, fun member => ⟨c, List.mem_singleton_self c, tag, elements, parsed, member⟩⟩
      rintro ⟨c', here, -, elements', parsed', member⟩
      rw [List.mem_singleton.mp here] at parsed'
      cases parsed.symm.trans parsed'
      exact member
    rw [same]
    exact grows
  · rename_i other
    cases derived
    exact silent other

theorem deriveChunks_grow (derived : chunks.foldlM deriveChunk d = .ok d') :
    Grows (OutputIn chunks) d.maxOutput d'.maxOutput := by
  induction chunks generalizing d with
  | nil =>
    cases derived
    have none_ : OutputIn [] = fun _ => False := by
      funext e
      simp [OutputIn]
    rw [none_]
    exact Grows.refl _
  | cons c rest ih =>
    obtain ⟨next, here, derived⟩ := bind_eq_ok.mp derived
    refine (deriveChunk_grows here).trans (ih derived) fun e => ?_
    simp [OutputIn]

theorem foldlM_keeps {σ α β : Type} (step : σ → α → Result σ) (f : σ → β)
    (keeps : ∀ s a s', step s a = .ok s' → f s' = f s) {l : List α} {s s' : σ}
    (folded : l.foldlM step s = .ok s') : f s' = f s := by
  induction l generalizing s with
  | nil =>
    cases folded
    rfl
  | cons a rest ih =>
    obtain ⟨next, here, folded⟩ := bind_eq_ok.mp folded
    exact (ih folded).trans (keeps s a next here)

theorem deriveChunk_slot (derived : deriveChunk d c = .ok d') :
    d'.output.slotFromVsPatch = d.output.slotFromVsPatch := by
  unfold deriveChunk at derived
  split at derived
  · cases derived
    rfl
  split at derived
  · obtain ⟨-, derived⟩ := check_eq_ok.mp derived
    obtain ⟨elements, -, derived⟩ := bind_eq_ok.mp derived
    rw [← Except.ok.inj derived]
    refine List.foldlRecOn (motive := fun d' : Derivation =>
      d'.output.slotFromVsPatch = d.output.slotFromVsPatch) elements deriveInput rfl ?_
    intro d₁ same e _
    unfold deriveInput
    split <;> exact same
  split at derived
  · obtain ⟨-, derived⟩ := check_eq_ok.mp derived
    obtain ⟨elements, -, derived⟩ := bind_eq_ok.mp derived
    have kept := foldlM_keeps deriveOutput (fun d : Derivation => d.output.slotFromVsPatch)
      (fun _ _ _ here => (deriveOutput_max here).2) derived
    exact kept
  · cases derived
    rfl

theorem finishDerivation_slot {output : EngineVelocityInputs}
    (finished : finishDerivation d = .ok output) (plain : d.output.slotFromVsPatch = false)
    (own : output.slotFromVsPatch = true) : output.identityRegister = d.maxOutput + 1 := by
  unfold finishDerivation at finished
  split at finished
  · cases finished
  obtain ⟨-, finished⟩ := check_eq_ok.mp finished
  obtain ⟨-, finished⟩ := check_eq_ok.mp finished
  obtain ⟨-, finished⟩ := check_eq_ok.mp finished
  obtain ⟨reads, -, finished⟩ := bind_eq_ok.mp finished
  obtain ⟨-, finished⟩ := check_eq_ok.mp finished
  split at finished
  · obtain ⟨-, finished⟩ := check_eq_ok.mp finished
    rw [← Except.ok.inj finished]
  · rw [← Except.ok.inj finished, plain] at own
    cases own

theorem answer_derived {r : Result EngineVelocityInputs}
    (derived : (answerDerived r).derived = true) : r = .ok (answerDerived r).output := by
  cases r with
  | error reason => cases derived
  | ok output => rfl

theorem derived_register {computeHashRetail : Bytes → Vector UInt8 16} {data : Bytes}
    (derived : (engineVelocityDeriveInputs computeHashRetail data).derived = true)
    (own : (engineVelocityDeriveInputs computeHashRetail data).output.slotFromVsPatch = true)
    (parsed : parseContainer computeHashRetail data kVs50 = .ok chunks)
    (low : ∀ e, OutputIn chunks e → e.registerIndex < 32) : ∀ e, OutputIn chunks e →
      e.registerIndex < (engineVelocityDeriveInputs computeHashRetail data).output.identityRegister := by
  unfold engineVelocityDeriveInputs at derived own ⊢
  have done := answer_derived derived
  generalize (answerDerived _).output = output at done own
  obtain ⟨chunks', again, done⟩ := bind_eq_ok.mp done
  cases parsed.symm.trans again
  obtain ⟨d, folded, finished⟩ := bind_eq_ok.mp done
  have plain := foldlM_keeps deriveChunk (fun d : Derivation => d.output.slotFromVsPatch)
    (fun _ _ _ here => deriveChunk_slot here) folded
  have grows := deriveChunks_grow folded
  intro e here
  rw [finishDerivation_slot finished plain own, UInt32.lt_iff_toNat_lt, UInt32.toNat_add]
  have covered := grows.covers e here
  have small := grows.bounded 32 (by decide) fun e here => UInt32.lt_iff_toNat_lt.mp (low e here)
  rw [show (1 : UInt32).toNat = 1 from rfl]
  omega

/-- When both patches succeed with the inputs that were derived from the vertex shader,
its output signature and the pixel shader's input signature have got one element each, of
one semantic and at one register, the one after the vertex shader's last output. No other
element is there, and no other declaration that is plain or of a register of its
signature. -/
theorem patches_share_slot (computeHashRetail : Bytes → Vector UInt8 16) (vs ps : Bytes)
    (derived : (engineVelocityDeriveInputs computeHashRetail vs).derived = true)
    (vsPatched : (engineVelocityPatchVs computeHashRetail vs
      (engineVelocityDeriveInputs computeHashRetail vs).output).patched = true)
    (psPatched : (engineVelocityPatchPs computeHashRetail ps
      (engineVelocityDeriveInputs computeHashRetail vs).output).patched = true) :
    let inputs := (engineVelocityDeriveInputs computeHashRetail vs).output
    SlotAdded computeHashRetail vertexStage (vsSlot inputs) (vsDeclaration inputs.identityRegister)
      vs (engineVelocityPatchVs computeHashRetail vs inputs).output ∧
    SlotAdded computeHashRetail pixelStage (psSlot inputs) (slotDeclaration inputs)
      ps (engineVelocityPatchPs computeHashRetail ps inputs).output ∧
    (vsSlot inputs).name = (psSlot inputs).name ∧
    (vsSlot inputs).semanticIndex = (psSlot inputs).semanticIndex ∧
    (vsSlot inputs).registerIndex = (psSlot inputs).registerIndex ∧
    ∀ chunks, parseContainer computeHashRetail vs kVs50 = .ok chunks → ∀ e, OutputIn chunks e →
      e.registerIndex < (vsSlot inputs).registerIndex := by
  obtain ⟨own, vertex⟩ := patchVs_adds vsPatched
  refine ⟨vertex, patchPs_adds own psPatched, rfl, rfl, rfl, fun chunks parsed => ?_⟩
  obtain ⟨chunks', _, elements, elements', _, _, parsed', holds, -, -, -, kept, low, -⟩ := vertex
  cases parsed.symm.trans parsed'
  refine derived_register derived own parsed fun e here => ?_
  obtain ⟨c, only, reads⟩ := holds.signature
  obtain ⟨c', member, tag, all, reads', inside⟩ := here
  have same : c' ∈ chunks.filter (isTagged kTagOsgn) :=
    List.mem_filter.mpr ⟨member, by simpa [isTagged] using tag⟩
  rw [show chunks.filter (isTagged kTagOsgn) = [c] from only] at same
  rw [List.mem_singleton.mp same] at reads'
  cases reads.symm.trans reads'
  obtain ⟨e', member', -, register⟩ := kept e inside
  rw [← register]
  exact low e' member'

/-! ### Two shaders -/

def zeroDigest (_ : Bytes) : Vector UInt8 16 :=
  Vector.replicate 16 0

def onePosition : SignatureElement :=
  { name := ascii "SV_POSITION", systemValue := 1, componentType := 3, masks := 0x000F }

def oneTarget : SignatureElement :=
  { name := ascii "SV_TARGET", componentType := 3, masks := 0x000F }

def onePool : SignatureElement :=
  { name := ascii "INSTANCEANDMODELDATAINDEX", componentType := 1, masks := 0x0101 }

/-- `dcl_resource_structured t33, 336`, `dcl_input v0.x`, `dcl_output_siv o0, position`,
`ld_structured` at `v0.x`, `ret`. -/
def poolProgram : List UInt32 :=
  [0x00010050, 20, 0x040000A2, 0x00107000, 33, 336, 0x0300005F, 0x00101012, 0, 0x04000067,
    0x001020F2, 0, 1, 0x060000A7, 0x001000F2, 0x0010100A, 0, 0x00107E46, 33, 0x0100003E]

/-- A vertex shader that reads the pool and exports no index of its own. -/
def poolVs : List Chunk :=
  [{ tag := kTagIsgn, bytes := signatureBytes [onePool] },
    { tag := kTagOsgn, bytes := signatureBytes [onePosition] },
    { tag := kTagShex, bytes := bytesOf poolProgram }]

def colourPs (program : List UInt32) : List Chunk :=
  [{ tag := kTagIsgn
     bytes := signatureBytes [onePosition] },
    { tag := kTagOsgn
      bytes := signatureBytes [oneTarget] },
    { tag := kTagShex, bytes := bytesOf program }]

def poolInputs : EngineVelocityInputs :=
  { identityRegister := 1, identityComponent := 0, positionRegister := 0, slotFromVsPatch := true }

theorem poolVs_derived : engineVelocityDeriveInputs zeroDigest (containerBytes zeroDigest poolVs) =
    { derived := true, output := poolInputs, reason := "" } := by
  decide +kernel

theorem answer_of_ok {r : Result Bytes} {output : Bytes} (ok : r = .ok output) :
    answer r = { patched := true, output, reason := "" } := by
  rw [ok]
  rfl

theorem exists_of_toBool {α : Type} {r : Result α} (ok : r.toBool = true) : ∃ a, r = .ok a := by
  cases r with
  | error reason => cases ok
  | ok a => exact ⟨a, rfl⟩

theorem sorted_made {a b : SignatureElement} (sorted : a.registerIndex ≤ b.registerIndex)
    (first : a.name ≠ [] ∧ a.name.length ≤ 255 ∧ a.registerIndex < 32)
    (second : b.name ≠ [] ∧ b.name.length ≤ 255 ∧ b.registerIndex < 32) :
    makeSignature (sortByRegister [a, b]) = .ok (signatureBytes [a, b]) := by
  have same : sortByRegister [a, b] = [a, b] := List.mergeSort_of_pairwise (by simpa using sorted)
  rw [same]
  refine makeSignature_eq (by simp) (by simp) fun e member => ?_
  rcases List.mem_cons.mp member with rfl | member
  · exact ⟨first.1, first.2.1, first.2.2⟩
  · rw [List.mem_singleton.mp member]
    exact ⟨second.1, second.2.1, second.2.2⟩

theorem mapChunks_three {change : ChunksSeen → Chunk → Result (ChunksSeen × Chunk)}
    {s₀ s₁ s₂ s₃ : ChunksSeen} {a b a' b' c' : Chunk} (first : change s₀ a = .ok (s₁, a'))
    (second : change s₁ b = .ok (s₂, b')) (third : change s₂ c = .ok (s₃, c')) :
    mapChunks change s₀ [a, b, c] = .ok (s₃, [a', b', c']) :=
  bind_eq_ok.mpr ⟨_, first, bind_eq_ok.mpr ⟨_, bind_eq_ok.mpr ⟨_, second, bind_eq_ok.mpr ⟨_,
    bind_eq_ok.mpr ⟨_, third, rfl⟩, rfl⟩⟩, rfl⟩⟩

theorem poolVs_patched :
    (engineVelocityPatchVs zeroDigest (containerBytes zeroDigest poolVs) poolInputs).patched =
      true := by
  have parsed : parseContainer zeroDigest (containerBytes zeroDigest poolVs) kVs50 = .ok poolVs := by
    decide +kernel
  obtain ⟨code, program⟩ := exists_of_toBool
    (show (patchVsProgram (bytesOf poolProgram) 1).toBool = true by decide +kernel)
  have first : patchVsChunk poolInputs {} { tag := kTagIsgn, bytes := signatureBytes [onePool] } =
      .ok ({}, { tag := kTagIsgn, bytes := signatureBytes [onePool] }) := by
    rfl
  have second : patchVsChunk poolInputs {}
      { tag := kTagOsgn, bytes := signatureBytes [onePosition] } =
        .ok ({ osgn := true },
          { tag := kTagOsgn, bytes := signatureBytes [onePosition, vsSlot poolInputs] }) := by
    have reads : parseSignature (signatureBytes [onePosition]) = .ok [onePosition] := by
      decide +kernel
    unfold patchVsChunk
    rw [if_pos rfl]
    exact check_eq_ok.mpr ⟨by decide, bind_eq_ok.mpr ⟨_, reads, check_eq_ok.mpr ⟨by decide,
      bind_eq_ok.mpr ⟨_, sorted_made (by decide) (by decide) (by decide), rfl⟩⟩⟩⟩
  have third : patchVsChunk poolInputs { osgn := true }
      { tag := kTagShex, bytes := bytesOf poolProgram } =
        .ok ({ osgn := true, program := true }, { tag := kTagShex, bytes := code }) := by
    unfold patchVsChunk
    rw [if_neg (by decide), if_pos (by decide)]
    exact check_eq_ok.mpr ⟨by decide, bind_eq_ok.mpr ⟨code, program, rfl⟩⟩
  have mapped := mapChunks_three first second third
  unfold engineVelocityPatchVs
  rw [if_neg (by decide)]
  rw [answer_of_ok (bind_eq_ok.mpr ⟨_, parsed, bind_eq_ok.mpr ⟨_, mapped,
    check_eq_ok.mpr ⟨by decide, makeContainer_eq zeroDigest (by simp) (by simp)⟩⟩⟩)]

theorem colourPs_patched {program : List UInt32} (parsed : parseContainer zeroDigest
      (containerBytes zeroDigest (colourPs program)) kPs50 = .ok (colourPs program))
    {code : Bytes} (done : patchPsProgram (bytesOf program) poolInputs = .ok code) :
    ∃ chunks' output, makeContainer zeroDigest chunks' = .ok output ∧
      chunks'.filter isProgramChunk = [{ tag := kTagShex, bytes := code }] ∧
      engineVelocityPatchPs zeroDigest (containerBytes zeroDigest (colourPs program)) poolInputs =
        { patched := true, output := output, reason := "" } := by
  obtain ⟨targets, colour⟩ := exists_of_toBool
    (show (patchPsOsgn (signatureBytes [oneTarget])).toBool = true by decide +kernel)
  have inputs : patchPsIsgn poolInputs (signatureBytes [onePosition]) =
      .ok (signatureBytes [{ onePosition with masks := 0x040F }, psSlot poolInputs]) := by
    have reads : parseSignature (signatureBytes [onePosition]) = .ok [onePosition] := by
      decide +kernel
    have kept : patchPsInputs poolInputs [onePosition] =
        .ok (false, true, [{ onePosition with masks := 0x040F }]) := by
      decide +kernel
    have same : sortByRegister [{ onePosition with masks := 0x040F }, psSlot poolInputs] =
        [{ onePosition with masks := 0x040F }, psSlot poolInputs] :=
      List.mergeSort_of_pairwise (by decide)
    refine bind_eq_ok.mpr ⟨_, reads, bind_eq_ok.mpr ⟨_, kept, check_eq_ok.mpr ⟨by decide,
      check_eq_ok.mpr ⟨?_, sorted_made (by decide) (by decide) (by decide)⟩⟩⟩⟩
    change ¬overlapping (sortByRegister [{ onePosition with masks := 0x040F }, psSlot poolInputs]) =
      true
    rw [same]
    decide
  generalize signatureBytes [{ onePosition with masks := 0x040F }, psSlot poolInputs] = inputs'
    at inputs
  have first : patchPsChunk poolInputs {} { tag := kTagIsgn, bytes := signatureBytes [onePosition] } =
      .ok ({ isgn := true }, { tag := kTagIsgn, bytes := inputs' }) := by
    unfold patchPsChunk
    rw [if_pos rfl]
    exact check_eq_ok.mpr ⟨by decide, bind_eq_ok.mpr ⟨_, inputs, rfl⟩⟩
  have second : patchPsChunk poolInputs { isgn := true }
      { tag := kTagOsgn, bytes := signatureBytes [oneTarget] } =
        .ok ({ isgn := true, osgn := true }, { tag := kTagOsgn, bytes := targets }) := by
    unfold patchPsChunk
    rw [if_neg (by decide), if_pos rfl]
    exact check_eq_ok.mpr ⟨by decide, bind_eq_ok.mpr ⟨targets, colour, rfl⟩⟩
  have third : patchPsChunk poolInputs { isgn := true, osgn := true }
      { tag := kTagShex, bytes := bytesOf program } =
        .ok ({ isgn := true, osgn := true, program := true }, { tag := kTagShex, bytes := code }) := by
    unfold patchPsChunk
    rw [if_neg (by decide : kTagShex ≠ kTagIsgn), if_neg (by decide : kTagShex ≠ kTagOsgn),
      if_pos (by decide : isProgram kTagShex = true)]
    exact check_eq_ok.mpr ⟨by decide, bind_eq_ok.mpr ⟨code, done, rfl⟩⟩
  have mapped := mapChunks_three first second third
  have made : makeContainer zeroDigest [{ tag := kTagIsgn, bytes := inputs' },
      { tag := kTagOsgn, bytes := targets }, { tag := kTagShex, bytes := code }] = .ok _ :=
    makeContainer_eq zeroDigest (by simp) (by simp)
  refine ⟨_, _, made, rfl, ?_⟩
  exact answer_of_ok (bind_eq_ok.mpr ⟨_, parsed, bind_eq_ok.mpr ⟨_, mapped,
    check_eq_ok.mpr ⟨by decide, made⟩⟩⟩)

def plainProgram : List UInt32 :=
  [0x00000050, 6, 0x03000065, 0x001020F2, 0, 0x0100003E]

theorem patches_share_slot_one :
    let vs := containerBytes zeroDigest poolVs
    let ps := containerBytes zeroDigest (colourPs plainProgram)
    SlotAdded zeroDigest vertexStage (vsSlot poolInputs) (vsDeclaration 1) vs
        (engineVelocityPatchVs zeroDigest vs poolInputs).output ∧
      SlotAdded zeroDigest pixelStage (psSlot poolInputs) (slotDeclaration poolInputs) ps
        (engineVelocityPatchPs zeroDigest ps poolInputs).output ∧
      (vsSlot poolInputs).name = (psSlot poolInputs).name ∧
      (vsSlot poolInputs).registerIndex = (psSlot poolInputs).registerIndex := by
  have vertex := poolVs_patched
  obtain ⟨code, done⟩ := exists_of_toBool
    (show (patchPsProgram (bytesOf plainProgram) poolInputs).toBool = true by decide +kernel)
  obtain ⟨_, _, -, -, pixel⟩ := colourPs_patched (by decide +kernel) done
  have inputs : (engineVelocityDeriveInputs zeroDigest (containerBytes zeroDigest poolVs)).output =
      poolInputs := by
    rw [poolVs_derived]
  have shared := patches_share_slot zeroDigest (containerBytes zeroDigest poolVs)
    (containerBytes zeroDigest (colourPs plainProgram)) (by rw [poolVs_derived])
    (by rw [inputs]; exact vertex) (by rw [inputs, pixel])
  rw [inputs] at shared
  exact ⟨shared.1, shared.2.1, shared.2.2.1, shared.2.2.2.2.1⟩

/-- `dcl_input v1.x`, `dcl_output o0`, `ret`: an input that the signature does not have. -/
def strayProgram : List UInt32 :=
  [0x00000050, 9, 0x0300005F, 0x00101012, 1, 0x03000065, 0x001020F2, 0, 0x0100003E]

/-- A register that a pixel shader declares beside its signature is given to the slot. -/
theorem stray_input_shares_register :
    let vs := containerBytes zeroDigest poolVs
    let ps := containerBytes zeroDigest (colourPs strayProgram)
    let derivation := engineVelocityDeriveInputs zeroDigest vs
    derivation.derived = true ∧ derivation.output.slotFromVsPatch = true ∧
      (engineVelocityPatchVs zeroDigest vs derivation.output).patched = true ∧
      (engineVelocityPatchPs zeroDigest ps derivation.output).patched = true ∧
      ∃ chunks' code program',
        makeContainer zeroDigest chunks' =
          .ok (engineVelocityPatchPs zeroDigest ps derivation.output).output ∧
        chunks'.filter isProgramChunk = [code] ∧
        instructionsOf (programWords code.bytes) = .ok program' ∧
        (program'.filter
          (declares 1 (psSlot derivation.output).registerIndex)).length = 2 := by
  have counted : (patchPsProgram (bytesOf strayProgram) poolInputs >>= fun code =>
      instructionsOf (programWords code) >>= fun program' =>
        .ok (program'.filter (declares 1 1)).length) = .ok 2 := by
    decide +kernel
  obtain ⟨code, done, counted⟩ := bind_eq_ok.mp counted
  obtain ⟨program', reads, counted⟩ := bind_eq_ok.mp counted
  obtain ⟨chunks', output, made, only, pixel⟩ := colourPs_patched (by decide +kernel) done
  intro vs ps derivation
  rw [show derivation = { derived := true, output := poolInputs, reason := "" } from poolVs_derived,
    show engineVelocityPatchPs zeroDigest ps poolInputs = { patched := true, output, reason := "" }
      from pixel]
  exact ⟨rfl, rfl, poolVs_patched, rfl, chunks', _, program', made, only, reads, Except.ok.inj counted⟩

end EdvrPatch.Dxbc
