import EdvrPatch.Dxbc.Container

/-! The shader patches of `dxbc_engine_velocity.h`. The first walk looks for what the patch needs
and refuses what it cannot reason about, the second copies every instruction and adds the new ones.
-/
namespace EdvrPatch.Dxbc

open Lib

def kEngineVelocityTarget : UInt32 := 6
def kEngineVelocitySlotMask : UInt32 := 0x007fffff

structure EngineVelocityInputs where
  identityRegister : UInt32 := 0xffffffff
  identityComponent : UInt32 := 0xffffffff
  positionRegister : UInt32 := 0xffffffff
  slotFromVsPatch : Bool := false
  deriving DecidableEq, Repr

def kOpRet : UInt32 := 62
def kOpRetc : UInt32 := 63
def kOpDclInput : UInt32 := 95
def kOpDclInputPs : UInt32 := 98
def kOpDclInputPsSiv : UInt32 := 100
def kOpDclOutput : UInt32 := 101
def kOpDclOutputSiv : UInt32 := 103
def kOpDclTemps : UInt32 := 104

abbrev Instruction := List UInt32

/-- Word `k` of an instruction; the code reads only words it has. -/
def Instruction.word (ins : Instruction) (k : Nat) : UInt32 :=
  ins.getD k 0

def Instruction.opcode (ins : Instruction) : UInt32 :=
  Instruction.word ins 0 &&& 0x7ff

def operandType (token : UInt32) : UInt32 :=
  (token >>> 12) &&& 255

def operandMask (token : UInt32) : UInt32 :=
  (token >>> 4) &&& 15

def programWords (bytes : Bytes) : List UInt32 :=
  wordsOf bytes

def programBytes (words : List UInt32) : Bytes :=
  bytesOf (words.set 1 (.ofNat words.length))

def declineUnsupported (opcode : UInt32) : Result Unit :=
  if 156 ≤ opcode ∧ opcode ≤ 160 then .error "UAV or thread-group declaration"
  else if opcode = 120 ∨ 144 ≤ opcode ∧ opcode ≤ 146 then .error "dynamic linkage"
  else if opcode = kOpRetc then .error "conditional return"
  else .ok ()

/-- `for (size_t at = 2; at < t.size();)`, with the instruction that stands at `at_`.
Every turn goes on by one word at least. -/
def walk {σ : Type} (tokens : σ → List UInt32) (step : σ → Nat → Instruction → Result σ) :
    Nat → Nat → σ → Result σ
  | 0, _, s => .ok s
  | fuel + 1, at_, s =>
    if (tokens s).length ≤ at_ then .ok s
    else do
      let length ← instructionLength (tokens s) at_
      let s ← step s at_ (((tokens s).drop at_).take length)
      walk tokens step fuel (at_ + length) s

def isOutputDeclaration (opcode : UInt32) : Bool :=
  kOpDclOutput ≤ opcode && opcode ≤ kOpDclOutputSiv

structure VsScan where
  lastOutputEnd : Nat := 0
  v0x : Bool := false
  rets : Bool := false
  deriving DecidableEq, Repr

def scanVs (slotRegister : UInt32) (s : VsScan) (at_ : Nat) (ins : Instruction) : Result VsScan := do
  declineUnsupported ins.opcode
  if isOutputDeclaration ins.opcode ∧ 3 ≤ ins.length ∧ operandType (ins.word 1) = 2 ∧
      ins.word 2 = slotRegister then throw "slot output register occupied"
  let s := if isOutputDeclaration ins.opcode then { s with lastOutputEnd := at_ + ins.length } else s
  let s := if ins.opcode = kOpDclInput ∧ ins.length = 3 ∧ operandType (ins.word 1) = 1 ∧
      ins.word 2 = 0 ∧ operandMask (ins.word 1) &&& 1 ≠ 0 then { s with v0x := true } else s
  return if ins.opcode = kOpRet then { s with rets := true } else s

def vsDeclaration (slotRegister : UInt32) : Instruction :=
  [0x03000065, 0x00102012, slotRegister]

def vsMove (slotRegister : UInt32) : Instruction :=
  [0x05000036, 0x00102012, slotRegister, 0x0010100A, 0]

def emitVs (slotRegister : UInt32) (lastOutputEnd : Nat) (out : List UInt32) (at_ : Nat)
    (ins : Instruction) : List UInt32 :=
  let out := if ins.opcode = kOpRet then out ++ vsMove slotRegister else out
  let out := out ++ ins
  if at_ + ins.length = lastOutputEnd then out ++ vsDeclaration slotRegister else out

def patchVsProgram (bytes : Bytes) (slotRegister : UInt32) : Result Bytes := do
  let t := programWords bytes
  let s ← walk (fun _ => t) (scanVs slotRegister) t.length 2 {}
  if s.lastOutputEnd = 0 then throw "no output declarations"
  if !s.v0x then throw "v0.x not declared"
  if !s.rets then throw "no return"
  let out ← walk (fun _ => t)
    (fun out at_ ins => .ok (emitVs slotRegister s.lastOutputEnd out at_ ins)) t.length 2 [t.getD 0 0, 0]
  return programBytes out

structure PsScan where
  t : List UInt32
  firstOutput : Nat := 0
  tempAt : Nat := 0
  firstExecutable : Nat := 0
  tempCount : UInt32 := 0
  returns : Nat := 0
  identityDeclared : Bool := false
  positionDeclared : Bool := false
  deriving DecidableEq, Repr

def isDeclaration (opcode : UInt32) : Bool :=
  (88 ≤ opcode && opcode ≤ 106) || opcode = 143 || (147 ≤ opcode && opcode ≤ 163) || opcode = 53

/-- What an input declaration of a pixel program says about the slot and the position. -/
def scanInput (inputs : EngineVelocityInputs) (s : PsScan) (at_ : Nat) (ins : Instruction) :
    Result PsScan := do
  let reg := ins.word 2
  let mask := operandMask (ins.word 1)
  if reg = inputs.identityRegister ∧ inputs.slotFromVsPatch then
    throw "slot input register occupied"
  let s := if reg = inputs.identityRegister ∧ mask &&& (1 <<< inputs.identityComponent) ≠ 0 then
    { s with identityDeclared := true } else s
  if reg = inputs.positionRegister then
    if ins.opcode ≠ kOpDclInputPsSiv then throw "position register not SV_Position"
    return { s with
      positionDeclared := true
      t := s.t.set (at_ + 1) (ins.word 1 ||| 0x40) }
  else return s

def scanPs (inputs : EngineVelocityInputs) (s : PsScan) (at_ : Nat) (ins : Instruction) :
    Result PsScan := do
  declineUnsupported ins.opcode
  let s := if s.firstExecutable = 0 ∧ !isDeclaration ins.opcode then
    { s with firstExecutable := at_ } else s
  let s := if s.firstOutput = 0 ∧ isOutputDeclaration ins.opcode then
    { s with firstOutput := at_ } else s
  if isOutputDeclaration ins.opcode ∧ 3 ≤ ins.length ∧ operandType (ins.word 1) = 2 ∧
      kEngineVelocityTarget ≤ ins.word 2 then throw "output target 6 or above occupied"
  let s ←
    if kOpDclInputPs ≤ ins.opcode ∧ ins.opcode ≤ kOpDclInputPsSiv ∧ 3 ≤ ins.length ∧
        operandType (ins.word 1) = 1 then scanInput inputs s at_ ins
    else pure s
  let s ←
    if ins.opcode = kOpDclTemps then
      if s.tempAt ≠ 0 ∨ ins.length ≠ 2 ∨ 4092 < ins.word 1 then throw "temps"
      else pure { s with tempAt := at_, tempCount := ins.word 1 }
    else pure s
  return if ins.opcode = kOpRet then { s with returns := s.returns + 1 } else s

def posDeclaration (inputs : EngineVelocityInputs) : Instruction :=
  [0x04002064, 0x00101042, inputs.positionRegister, 1]

def slotDeclaration (inputs : EngineVelocityInputs) : Instruction :=
  [0x03000862, 0x00101012, inputs.identityRegister]

def outDeclaration : Instruction :=
  [0x03000065, 0x00102032, kEngineVelocityTarget]

def tempDeclaration : Instruction :=
  [0x02000068, 1]

def psTail (inputs : EngineVelocityInputs) (temp : UInt32) : List Instruction :=
  [[0x07000001, 0x00100012, temp, (0x0010100A : UInt32) ||| (inputs.identityComponent <<< 4),
      inputs.identityRegister, 0x00004001, kEngineVelocitySlotMask],
    [0x09000023, 0x00100012, temp, 0x0010000A, temp, 0x00004001, 2, 0x00004001, 1],
    [0x05000056, 0x00102012, kEngineVelocityTarget, 0x0010000A, temp],
    [0x05000036, 0x00102022, kEngineVelocityTarget, 0x0010102A, inputs.positionRegister]]

structure PsEmit where
  out : List UInt32
  outputDeclared : Bool := false
  deriving DecidableEq, Repr

def emitPs (inputs : EngineVelocityInputs) (s : PsScan) (e : PsEmit) (at_ : Nat)
    (ins : Instruction) : PsEmit :=
  let e := if at_ = s.firstOutput then
    { e with
      out := e.out ++ (if s.positionDeclared then [] else posDeclaration inputs) ++
        (if inputs.slotFromVsPatch then slotDeclaration inputs else []) } else e
  if s.tempAt ≠ 0 ∧ at_ = s.tempAt then
    { out := e.out ++ outDeclaration ++ [ins.word 0, s.tempCount + 1], outputDeclared := true }
  else
    let e := if s.tempAt = 0 ∧ at_ = s.firstExecutable then
      { out := e.out ++ outDeclaration ++ tempDeclaration, outputDeclared := true } else e
    let e := if ins.opcode = kOpRet then
      { e with out := e.out ++ (psTail inputs s.tempCount).flatten } else e
    { e with out := e.out ++ ins }

def patchPsProgram (bytes : Bytes) (inputs : EngineVelocityInputs) : Result Bytes := do
  let t := programWords bytes
  let s ← walk PsScan.t (scanPs inputs) t.length 2 { t }
  if s.firstOutput = 0 then throw "no output declarations"
  if s.returns = 0 then throw "no return"
  if !inputs.slotFromVsPatch ∧ !s.identityDeclared then throw "identity input not declared"
  if s.tempAt = 0 ∧ s.firstExecutable = 0 then throw "no executable instructions"
  let e ← walk (fun _ => s.t) (fun e at_ ins => .ok (emitPs inputs s e at_ ins)) s.t.length 2
    { out := [s.t.getD 0 0, 0] }
  if !e.outputDeclared then throw "output declaration not placed"
  return programBytes e.out

def kTagIsgn : UInt32 := 0x4e475349
def kTagOsgn : UInt32 := 0x4e47534f
def kVs50 : UInt32 := 0x00010050
def kPs50 : UInt32 := 0x00000050

def ascii (s : String) : Bytes :=
  s.toList.map fun c => .ofNat c.toNat

def lowerBytes (name : Bytes) : Bytes :=
  name.map fun b => if 65 ≤ b ∧ b ≤ 90 then b + 32 else b

def equalName (a : Bytes) (b : String) : Bool :=
  lowerBytes a = lowerBytes (ascii b)

def startsWithName (a : Bytes) (b : String) : Bool :=
  lowerBytes (ascii b) <+: lowerBytes a

def kEngineVelocitySlotSemantic : String := "EDVRPOOLSLOT"

def sortByRegister (elements : List SignatureElement) : List SignatureElement :=
  elements.mergeSort fun a b => a.registerIndex ≤ b.registerIndex

/-- What a patcher answers: a declined program has a reason and no bytes. -/
structure Patched where
  patched : Bool
  output : Bytes
  reason : String
  deriving DecidableEq, Repr

def answer : Result Bytes → Patched
  | .ok output => { patched := true, output, reason := "" }
  | .error reason => { patched := false, output := [], reason }

structure ChunksSeen where
  isgn : Bool := false
  osgn : Bool := false
  program : Bool := false

def mapChunks (change : ChunksSeen → Chunk → Result (ChunksSeen × Chunk)) :
    ChunksSeen → List Chunk → Result (ChunksSeen × List Chunk)
  | seen, [] => .ok (seen, [])
  | seen, c :: rest => do
    let (seen, c) ← change seen c
    let (seen, rest) ← mapChunks change seen rest
    return (seen, c :: rest)

def patchVsChunk (inputs : EngineVelocityInputs) (seen : ChunksSeen) (c : Chunk) :
    Result (ChunksSeen × Chunk) := do
  if c.tag = kTagOsgn then
    if seen.osgn then throw "duplicate output signature"
    let elements ← parseSignature c.bytes
    if elements.any fun e => e.registerIndex = inputs.identityRegister then
      throw "slot output register occupied"
    let slot : SignatureElement :=
      { name := ascii kEngineVelocitySlotSemantic, componentType := 1
        registerIndex := inputs.identityRegister, masks := 0x0E01 }
    return ({ seen with osgn := true },
      { c with bytes := ← makeSignature (sortByRegister (elements ++ [slot])) })
  else if isProgram c.tag then
    if seen.program then throw "duplicate program"
    return ({ seen with program := true },
      { c with bytes := ← patchVsProgram c.bytes inputs.identityRegister })
  else return (seen, c)

/-- The input elements of a pixel shader, with the position live; whether the slot and
the position are among them. -/
def patchPsInputs (inputs : EngineVelocityInputs) :
    List SignatureElement → Result (Bool × Bool × List SignatureElement)
  | [] => .ok (false, false, [])
  | e :: rest => do
    if e.registerIndex = inputs.identityRegister ∧ inputs.slotFromVsPatch then
      throw "slot input register occupied"
    let named := e.registerIndex = inputs.identityRegister ∧ e.componentType = 1 ∧
      e.masks &&& (1 <<< inputs.identityComponent) ≠ 0
    let placed := e.registerIndex = inputs.positionRegister
    if placed ∧ (!(e.systemValue = 1 ∨ equalName e.name "SV_POSITION") ∨ e.componentType ≠ 3) then
      throw "position input register holds another semantic"
    let (identity, position, rest) ← patchPsInputs inputs rest
    return (named || identity, placed || position,
      (if placed then { e with masks := e.masks ||| 4 ||| 0x0400 } else e) :: rest)

def overlapping : List SignatureElement → Bool
  | a :: b :: rest =>
    (b.registerIndex = a.registerIndex && b.masks &&& a.masks &&& 15 ≠ 0) || overlapping (b :: rest)
  | _ => false

def patchPsIsgn (inputs : EngineVelocityInputs) (bytes : Bytes) : Result Bytes := do
  let (identity, position, elements) ← patchPsInputs inputs (← parseSignature bytes)
  if !inputs.slotFromVsPatch ∧ !identity then throw "identity input absent"
  let slot : SignatureElement :=
    { name := ascii kEngineVelocitySlotSemantic, componentType := 1
      registerIndex := inputs.identityRegister, masks := 0x0101 }
  let p : SignatureElement :=
    { name := ascii "SV_Position", systemValue := 1, componentType := 3
      registerIndex := inputs.positionRegister, masks := 0x040F }
  let elements := sortByRegister (elements ++ (if inputs.slotFromVsPatch then [slot] else []) ++
    (if position then [] else [p]))
  if overlapping elements then throw "overlapping input registers"
  makeSignature elements

def colourTarget : List SignatureElement → Option UInt32 → Result (Option UInt32)
  | [], target => .ok target
  | e :: rest, target => do
    if startsWithName e.name "SV_DEPTH" ∨ startsWithName e.name "SV_COVERAGE" then
      throw "depth or coverage output"
    if equalName e.name "SV_TARGET" then
      if kEngineVelocityTarget ≤ e.registerIndex then throw "output target 6 or above occupied"
      colourTarget rest (some e.systemValue)
    else colourTarget rest target

def patchPsOsgn (bytes : Bytes) : Result Bytes := do
  let elements ← parseSignature bytes
  match ← colourTarget elements none with
  | none => throw "no colour output"
  | some systemValue =>
    let velocity : SignatureElement :=
      { name := ascii "SV_TARGET", semanticIndex := kEngineVelocityTarget, systemValue
        componentType := 3, registerIndex := kEngineVelocityTarget, masks := 0x0C03 }
    makeSignature (elements ++ [velocity])

def patchPsChunk (inputs : EngineVelocityInputs) (seen : ChunksSeen) (c : Chunk) :
    Result (ChunksSeen × Chunk) := do
  if c.tag = kTagIsgn then
    if seen.isgn then throw "duplicate input signature"
    return ({ seen with isgn := true }, { c with bytes := ← patchPsIsgn inputs c.bytes })
  else if c.tag = kTagOsgn then
    if seen.osgn then throw "duplicate output signature"
    return ({ seen with osgn := true }, { c with bytes := ← patchPsOsgn c.bytes })
  else if isProgram c.tag then
    if seen.program then throw "duplicate program"
    return ({ seen with program := true }, { c with bytes := ← patchPsProgram c.bytes inputs })
  else return (seen, c)

section

variable (computeHashRetail : Bytes → Vector UInt8 16)

def engineVelocityPatchVs (data : Bytes) (inputs : EngineVelocityInputs) : Patched :=
  if !inputs.slotFromVsPatch ∨ 32 ≤ inputs.identityRegister ∨ inputs.identityComponent ≠ 0 then
    answer (.error "vertex shader needs no slot export")
  else answer do
    let chunks ← parseContainer computeHashRetail data kVs50
    let (seen, chunks) ← mapChunks (patchVsChunk inputs) {} chunks
    if !seen.osgn ∨ !seen.program then throw "missing vertex shader chunks"
    makeContainer computeHashRetail chunks

def engineVelocityPatchPs (data : Bytes) (inputs : EngineVelocityInputs) : Patched :=
  if 32 ≤ inputs.identityRegister ∨ 4 ≤ inputs.identityComponent ∨ 32 ≤ inputs.positionRegister ∨
      inputs.identityRegister = inputs.positionRegister then
    answer (.error "invalid shader inputs")
  else answer do
    let chunks ← parseContainer computeHashRetail data kPs50
    let (seen, chunks) ← mapChunks (patchPsChunk inputs) {} chunks
    if !seen.isgn ∨ !seen.osgn ∨ !seen.program then throw "missing pixel shader chunks"
    makeContainer computeHashRetail chunks

end

end EdvrPatch.Dxbc
