import EdvrPatch.Lib.Words

/-! DXBC containers and signatures, from `dxbc_container.h`: the two parsers, the two
encoders, and the length of an instruction. The retail checksum is a parameter. -/
namespace EdvrPatch.Dxbc

open Lib

abbrev Result := Except String

structure SignatureElement where
  name : Bytes := []
  semanticIndex : UInt32 := 0
  systemValue : UInt32 := 0
  componentType : UInt32 := 0
  registerIndex : UInt32 := 0
  masks : UInt32 := 0
  deriving DecidableEq, Repr

structure Chunk where
  tag : UInt32 := 0
  bytes : Bytes := []
  deriving DecidableEq, Repr

def word (bytes : Bytes) (offset : Nat) : Result UInt32 :=
  match wordAt bytes offset with
  | some v => .ok v
  | none => .error "bounds"

def put (bytes : Bytes) (v : UInt32) : Bytes :=
  bytes ++ wordBytes v

def setWord (bytes : Bytes) (offset : Nat) (v : UInt32) : Result Bytes :=
  if bytes.length < offset + 4 then .error "bounds" else .ok (write bytes offset v)

def padding (size : Nat) : Bytes :=
  List.replicate ((4 - size % 4) % 4) 0xab

/-- The length an instruction names: constant buffers carry theirs in the word behind. -/
def namedLength (token : UInt32) (next : Option UInt32) : Result Nat :=
  if token &&& 0x7ff = 53 then
    match next with
    | none => .error "unsupported custom data"
    | some next =>
      if token >>> 11 ≠ 3 then .error "unsupported custom data"
      else if next < 2 ∨ (next - 2) % 4 ≠ 0 then .error "constant buffer length"
      else .ok next.toNat
  else .ok ((token >>> 24) &&& 127).toNat

def instructionLength (tokens : List UInt32) (at_ : Nat) : Result Nat :=
  match tokens.drop at_ with
  | [] => .error "instruction bounds"
  | token :: rest => do
    let length ← namedLength token rest.head?
    if length = 0 ∨ tokens.length - at_ < length then .error "instruction length" else .ok length

def parseElement (bytes : Bytes) (i : Nat) : Result SignatureElement := do
  let at_ := 8 + i * 24
  let nameOffset ← word bytes at_
  if bytes.length ≤ nameOffset.toNat then throw "signature name"
  let rest := bytes.drop nameOffset.toNat
  let name := rest.takeWhile (· ≠ 0)
  if name.length = rest.length ∨ name = [] then throw "signature name"
  let semanticIndex ← word bytes (at_ + 4)
  let systemValue ← word bytes (at_ + 8)
  let componentType ← word bytes (at_ + 12)
  let registerIndex ← word bytes (at_ + 16)
  let masks ← word bytes (at_ + 20)
  return { name, semanticIndex, systemValue, componentType, registerIndex, masks }

def parseSignature (bytes : Bytes) : Result (List SignatureElement) := do
  if bytes.length < 8 then throw "signature header"
  if (← word bytes 4) ≠ 8 then throw "signature header"
  let count ← word bytes 0
  if 128 < count ∨ bytes.length < 8 + count.toNat * 24 then throw "signature entries"
  (List.range count.toNat).mapM (parseElement bytes)

def addElement (result : Bytes) (i : Nat) (e : SignatureElement) : Result Bytes := do
  if e.name = [] ∨ 255 < e.name.length ∨ 32 ≤ e.registerIndex then throw "signature element"
  let nameOffset := UInt32.ofNat result.length
  let result := result ++ e.name ++ [0]
  let result := result ++ padding result.length
  let at_ := 8 + i * 24
  let result ← setWord result at_ nameOffset
  let result ← setWord result (at_ + 4) e.semanticIndex
  let result ← setWord result (at_ + 8) e.systemValue
  let result ← setWord result (at_ + 12) e.componentType
  let result ← setWord result (at_ + 16) e.registerIndex
  setWord result (at_ + 20) e.masks

def addElements : Bytes → Nat → List SignatureElement → Result Bytes
  | result, _, [] => .ok result
  | result, i, e :: rest => do addElements (← addElement result i e) (i + 1) rest

def makeSignature (elements : List SignatureElement) : Result Bytes := do
  if elements = [] ∨ 128 < elements.length then throw "signature count"
  let result := put (put [] (.ofNat elements.length)) 8
  addElements (result ++ List.replicate (elements.length * 24) 0) 0 elements

def kTagShex : UInt32 := 0x58454853
def kTagShdr : UInt32 := 0x52444853

def isProgram (tag : UInt32) : Bool :=
  tag = kTagShex || tag = kTagShdr

def magic : Bytes := [0x44, 0x58, 0x42, 0x43]

def parseChunk (input : Bytes) (i : Nat) : Result Chunk := do
  let offset ← word input (32 + i * 4)
  if input.length < offset.toNat + 8 then throw "chunk bounds"
  let tag ← word input offset.toNat
  let size ← word input (offset.toNat + 4)
  if input.length - offset.toNat - 8 < size.toNat then throw "chunk bounds"
  return { tag, bytes := (input.drop (offset.toNat + 8)).take size.toNat }

def readProgram (expectedProgramType : UInt32) (program : Bool) (c : Chunk) : Result Bool := do
  if !isProgram c.tag then return program
  if program || c.bytes.length < 8 || c.bytes.length % 4 ≠ 0 then throw "program header"
  if (← word c.bytes 0) ≠ expectedProgramType then throw "program header"
  if (← word c.bytes 4).toNat ≠ c.bytes.length / 4 then throw "program header"
  return true

def parseChunks (input : Bytes) (expectedProgramType : UInt32) :
    List Nat → Bool → Result (Bool × List Chunk)
  | [], program => .ok (program, [])
  | i :: rest, program => do
    let c ← parseChunk input i
    let program ← readProgram expectedProgramType program c
    let (program, chunks) ← parseChunks input expectedProgramType rest program
    return (program, c :: chunks)

def addChunk (result : Bytes) (i : Nat) (c : Chunk) : Result Bytes := do
  let result := result ++ padding result.length
  let offset := UInt32.ofNat result.length
  let result ← setWord result (32 + i * 4) offset
  return put (put result c.tag) (.ofNat c.bytes.length) ++ c.bytes

def addChunks : Bytes → Nat → List Chunk → Result Bytes
  | result, _, [] => .ok result
  | result, i, c :: rest => do addChunks (← addChunk result i c) (i + 1) rest

section

variable (computeHashRetail : Bytes → Vector UInt8 16)

def parseContainer (input : Bytes) (expectedProgramType : UInt32) : Result (List Chunk) := do
  if input.length < 32 ∨ 1024 * 1024 < input.length then throw "bytecode size"
  if input.take 4 ≠ magic then throw "container"
  if (← word input 24).toNat ≠ input.length then throw "container"
  if 128 < (← word input 28) then throw "container"
  if (computeHashRetail (input.drop 20)).toList ≠ (input.drop 4).take 16 then throw "input checksum"
  let count ← word input 28
  if input.length < 32 + count.toNat * 4 then throw "chunk table"
  let (program, chunks) ← parseChunks input expectedProgramType (List.range count.toNat) false
  if !program then throw "missing program"
  return chunks

def makeContainer (chunks : List Chunk) : Result Bytes := do
  if chunks = [] ∨ 128 < chunks.length then throw "chunk count"
  let result := magic ++ List.replicate (28 + chunks.length * 4) 0
  let result ← setWord result 20 1
  let result ← setWord result 28 (.ofNat chunks.length)
  let result ← addChunks result 0 chunks
  let result ← setWord result 24 (.ofNat result.length)
  return result.take 4 ++ (computeHashRetail (result.drop 20)).toList ++ result.drop 20

end

end EdvrPatch.Dxbc
