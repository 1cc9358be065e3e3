import EdvrPatch.Dxbc.EngineVelocity

/-! Where the slot and the position reach the pixel shader, from the vertex shader's
signatures (`engineVelocityDeriveInputs`). A vertex shader that exports no slot, and
that reads the pool at `v0.x`, is to be patched: the slot gets the register after its
last output. -/
namespace EdvrPatch.Dxbc

open Lib

def kOpDclResourceStructured : UInt32 := 162
def kOpLdStructured : UInt32 := 167

/-- The words of an instruction behind its first, each with the one that follows it. -/
def operandPairs (ins : Instruction) : List (UInt32 × UInt32) :=
  ins.tail.zip ins.tail.tail

def readsPool (ins : Instruction) : Bool :=
  ((operandPairs ins).any fun p => p.1 = 0x0010100A && p.2 = 0) &&
    (operandPairs ins).any fun p => p.1 &&& 0x00100000 ≠ 0 && operandType p.1 = 7 && p.2 = 33

structure PoolScan where
  declared : Bool := false
  indexed : Bool := false
  deriving DecidableEq, Repr

def scanPool (s : PoolScan) (ins : Instruction) : PoolScan :=
  let s := if ins.opcode = kOpDclResourceStructured ∧ ins.length = 4 ∧
      operandType (ins.word 1) = 7 ∧ ins.word 2 = 33 ∧ ins.word 3 = 336 then
    { s with declared := true } else s
  if ins.opcode = kOpLdStructured then { s with indexed := s.indexed || readsPool ins } else s

def readsPoolAtV0x (t : List UInt32) : Result Bool := do
  let s ← walk (fun _ => t) (fun s _ ins => .ok (scanPool s ins)) t.length 2 {}
  return s.declared && s.indexed

/-- What the loop over the chunks of the vertex shader has found. -/
structure Derivation where
  output : EngineVelocityInputs := {}
  program : Option Bytes := none
  isgn : Bool := false
  osgn : Bool := false
  instanceIndex : Bool := false
  maxOutput : UInt32 := 0
  deriving DecidableEq, Repr

def deriveInput (d : Derivation) (e : SignatureElement) : Derivation :=
  if equalName e.name "INSTANCEANDMODELDATAINDEX" ∧ e.semanticIndex = 0 ∧ e.registerIndex = 0 ∧
      e.componentType = 1 ∧ e.masks &&& 1 ≠ 0 then
    { d with instanceIndex := true }
  else d

def exportsSlot (e : SignatureElement) : Bool :=
  e.componentType = 1 &&
    ((equalName e.name "__USER_MATERIALMODULATION_DATAID" && e.masks &&& 2 ≠ 0) ||
      (equalName e.name "__USER_VERTEX_FACEINVARIANT" && e.masks &&& 1 ≠ 0))

def deriveIdentity (d : Derivation) (e : SignatureElement) : Result Derivation :=
  if exportsSlot e then
    if d.output.identityRegister ≠ 0xffffffff then .error "ambiguous identity output"
    else .ok { d with output := { d.output with
      identityRegister := e.registerIndex
      identityComponent := if equalName e.name "__USER_MATERIALMODULATION_DATAID" then 1 else 0 } }
  else .ok d

def derivePosition (d : Derivation) (e : SignatureElement) : Result Derivation :=
  if (e.systemValue = 1 ∨ equalName e.name "SV_POSITION") ∧ e.masks &&& 4 ≠ 0 then
    if e.componentType ≠ 3 ∨ d.output.positionRegister ≠ 0xffffffff then
      .error "ambiguous position output"
    else .ok { d with output := { d.output with positionRegister := e.registerIndex } }
  else .ok d

def deriveOutput (d : Derivation) (e : SignatureElement) : Result Derivation := do
  let d ← deriveIdentity { d with maxOutput := max d.maxOutput e.registerIndex } e
  derivePosition d e

def deriveChunk (d : Derivation) (c : Chunk) : Result Derivation := do
  if isProgram c.tag then return { d with program := some c.bytes }
  else if c.tag = kTagIsgn then
    if d.isgn then throw "duplicate input signature"
    return (← parseSignature c.bytes).foldl deriveInput { d with isgn := true }
  else if c.tag = kTagOsgn then
    if d.osgn then throw "duplicate output signature"
    (← parseSignature c.bytes).foldlM deriveOutput { d with osgn := true }
  else return d

/-- The checks behind the loop, and the register for a slot that is not exported. -/
def finishDerivation (d : Derivation) : Result EngineVelocityInputs := do
  match d.program with
  | none => throw "missing vertex shader chunks"
  | some program =>
    if !d.isgn ∨ !d.osgn then throw "missing vertex shader chunks"
    if !d.instanceIndex then throw "no INSTANCEANDMODELDATAINDEX.x at v0"
    if 32 ≤ d.output.positionRegister then throw "SV_POSITION output absent"
    if !(← readsPoolAtV0x (programWords program)) then
      throw "does not index the t33 pool by v0.x"
    if d.output.identityRegister = 0xffffffff then
      if 32 ≤ d.maxOutput + 1 then throw "no free output register for the slot"
      return { d.output with
        identityRegister := d.maxOutput + 1
        identityComponent := 0
        slotFromVsPatch := true }
    else return d.output

/-- What `engineVelocityDeriveInputs` answers: a declined shader has a reason and no
inputs. -/
structure Derived where
  derived : Bool
  output : EngineVelocityInputs
  reason : String
  deriving DecidableEq, Repr

def answerDerived : Result EngineVelocityInputs → Derived
  | .ok output => { derived := true, output, reason := "" }
  | .error reason => { derived := false, output := {}, reason }

def engineVelocityDeriveInputs (computeHashRetail : Bytes → Vector UInt8 16) (data : Bytes) :
    Derived :=
  answerDerived do
    let chunks ← parseContainer computeHashRetail data kVs50
    finishDerivation (← chunks.foldlM deriveChunk {})

end EdvrPatch.Dxbc
