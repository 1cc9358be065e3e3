import EdvrPatch.Lib.Guarded

/-! The proof that an executable is the one whose Oculus selector is known
(`elite_oculus_profile.h`). Numbers are natural numbers here; a 32-bit sum that wraps around is a
fault, as is a read outside the image. -/
namespace EdvrPatch.Oculus

open Lib Lib.Guarded

inductive OculusProfileFailureStage
  | none | mapping | header | headerImageBase | imports | delayImports | fingerprints
  | callChain | fault
  deriving DecidableEq

structure OculusProfileMatch where
  loadLibrarySlot : Option Nat := .none
  callerReturnRva : Nat := 0
  failureStage : OculusProfileFailureStage := .none
  deriving DecidableEq

abbrev Check := Guarded OculusProfileFailureStage

def kPreferredImageBase : Nat := 0x140000000
def kLoadLibraryIatRva : Nat := 0x4DB32E0
def kLoaderCallRva : Nat := 0x4E70B6
def kLoaderReturnRva : Nat := 0x4E70BC

structure Section_ where
  rva : Nat
  span : Nat
  characteristics : Nat

structure ImageView where
  span : Nat
  imageSize : Nat
  headersSize : Nat
  sectionTable : Nat
  sectionCount : Nat
  optional : Nat
  optionalSize : Nat
  directoryCount : Nat

def sum32 (a b : Nat) : Check Nat := fun _ stage =>
  (if a + b < 2 ^ 32 then .ok (a + b) else .error .fault, stage)

def setStage (stage : OculusProfileFailureStage) : Check Unit := modify fun _ => stage

def ImageView.Range (v : ImageView) (offset size : Nat) : Prop :=
  offset ≤ v.span ∧ size ≤ v.span - offset ∧ offset + size ≤ v.imageSize

instance (v : ImageView) (offset size : Nat) : Decidable (v.Range offset size) :=
  inferInstanceAs (Decidable (_ ∧ _))

def u16 (offset : Nat) : Check Nat := do
  let value ← halfAt offset
  return value.toNat

def u32 (offset : Nat) : Check Nat := do
  let value ← wordAt offset
  return value.toNat

def u64 (offset : Nat) : Check Nat := do
  let low ← u32 offset
  let high ← u32 (offset + 4)
  return low + 2 ^ 32 * high

/-- A field of a structure in the image, whose offset is a sum of 32 bits. -/
def u16In (start field : Nat) : Check Nat := do u16 (← sum32 start field)
def u32In (start field : Nat) : Check Nat := do u32 (← sum32 start field)

def sectionAt (v : ImageView) (index : Nat) : Check (Option Section_) := do
  let off := v.sectionTable + index * 40
  if ¬v.Range off 40 then return .none
  else
  let virtualSize ← u32 (off + 8)
  let rva ← u32 (off + 12)
  let rawSize ← u32 (off + 16)
  let span := max virtualSize rawSize
  if span = 0 ∨ v.imageSize < rva + span then return .none
  else
  let characteristics ← u32 (off + 36)
  return some { rva, span, characteristics }

def inSections (v : ImageView) (test : Section_ → Bool) : List Nat → Check Bool
  | [] => return false
  | i :: is => do
    match ← sectionAt v i with
    | .none => return false
    | some s => if test s then return true else inSections v test is

def Section_.holds (s : Section_) (rva size : Nat) : Bool :=
  s.rva ≤ rva ∧ rva + size ≤ s.rva + s.span

def Section_.executable (s : Section_) : Bool := s.characteristics.testBit 29

def mappedRva (v : ImageView) (rva size : Nat) : Check Bool := do
  if ¬v.Range rva size then return false
  else if rva + size ≤ v.headersSize then return true
  else inSections v (fun s => s.holds rva size) (List.range v.sectionCount)

def executableRva (v : ImageView) (rva size : Nat) : Check Bool := do
  if ¬v.Range rva size then return false
  else inSections v (fun s => s.executable && s.holds rva size) (List.range v.sectionCount)

def lowerByte (b : UInt8) : UInt8 := if 0x41 ≤ b ∧ b ≤ 0x5A then b + 32 else b

/-- The loop of `cstring_equals`. The strings it is given end long before 4096 bytes. -/
def equalsFrom (v : ImageView) (rva : Nat) : Bytes → Nat → Check Bool
  | [], _ => return false
  | wanted :: rest, n => do
    let at_ ← sum32 rva n
    if !(← mappedRva v at_ 1) then return false
    else
    let actual ← byteAt at_
    if actual = 0 ∨ wanted = 0 then return actual = wanted
    else if lowerByte actual ≠ lowerByte wanted then return false
    else equalsFrom v rva rest (n + 1)

def cstring (s : String) : Bytes := s.toList.map (fun c => c.toNat.toUInt8) ++ [0]

def cstringEquals (v : ImageView) (rva : Nat) (expected : Bytes) : Check Bool := do
  if !(← mappedRva v rva 1) then return false
  else equalsFrom v rva expected 0

def libovr : Bytes := [0x6C, 0x69, 0x62, 0x6F, 0x76, 0x72]

def libovrFrom (v : ImageView) (rva : Nat) : Nat → Nat → Bytes → Check Bool
  | 0, _, _ => return false
  | left + 1, n, recent => do
    let at_ ← sum32 rva n
    if !(← mappedRva v at_ 1) then return false
    else
    let raw ← byteAt at_
    if raw = 0 then return false
    else
    let recent := recent.drop 1 ++ [lowerByte raw]
    if recent = libovr then return true
    else libovrFrom v rva left (n + 1) recent

def cstringContainsLibovr (v : ImageView) (rva : Nat) : Check Bool := do
  if !(← mappedRva v rva 1) then return false
  else libovrFrom v rva 64 0 (List.replicate 6 0)

def checkSection (v : ImageView) (i : Nat) : Check Unit := do
  let a ← orReturn (← sectionAt v i)
  (List.range i).forM fun j => do
    let b ← orReturn (← sectionAt v j)
    let bEnd ← sum32 b.rva b.span
    let aEnd ← sum32 a.rva a.span
    returnIf (a.rva < bEnd ∧ b.rva < aEnd)

def imageView (exeBase span : Nat) : Check ImageView := do
  returnIf (exeBase = 0 ∨ span < 64)
  returnIf ((← byteAt 0) ≠ 0x4D)
  returnIf ((← byteAt 1) ≠ 0x5A)
  let nt ← u32 0x3C
  returnIf (span - 4 < nt ∨ 0xFFFFFFFF - 24 < nt ∨ span < nt + 24)
  returnIf ((← u32 nt) ≠ 0x4550)
  let sectionCount ← u16In nt 6
  let optionalSize ← u16In nt 20
  let optional ← sum32 nt 24
  returnIf (0xFFFFFFFF - optionalSize < optional)
  returnIf (sectionCount = 0 ∨ 96 < sectionCount ∨ optionalSize < 112 ∨
    span < optional + optionalSize)
  returnIf ((← u16 optional) ≠ 0x20B)
  returnIf ((← u16In nt 4) ≠ 0x8664)
  returnIf ((← u32In nt 8) ≠ 0x6A989634)
  let directoryCount ← u32In optional 108
  returnIf ((optionalSize - 112) / 8 < directoryCount)
  let imageSize ← u32In optional 56
  let headersSize ← u32In optional 60
  let sectionTable ← sum32 optional optionalSize
  returnIf (sectionCount ≠ 7 ∨ imageSize ≠ 0x6409000 ∨ headersSize ≠ 0x400 ∨ span < imageSize ∨
    imageSize < headersSize ∨ headersSize < sectionTable)
  let imageBase ← u64 (← sum32 optional 24)
  modify fun stage =>
    if imageBase ≠ kPreferredImageBase ∧ imageBase ≠ exeBase then .headerImageBase else stage
  returnIf (imageBase ≠ kPreferredImageBase ∧ imageBase ≠ exeBase)
  let v : ImageView :=
    { span, imageSize, headersSize, sectionTable, sectionCount, optional, optionalSize
      directoryCount }
  returnIf (¬v.Range sectionTable (sectionCount * 40))
  (List.range sectionCount).forM (checkSection v)
  let text ← orReturn (← sectionAt v 0)
  returnIf (text.rva ≠ 0x1000 ∨ text.span < 0x4DB2000 ∨ ¬text.executable)
  return v

def sameBytes (rva : Nat) : Bytes → Nat → Check Bool
  | [], _ => return true
  | want :: rest, i => do
    if (← byteAt (← sum32 rva i)) ≠ want then return false
    else sameBytes rva rest (i + 1)

def bytes (v : ImageView) (rva : Nat) (want : Bytes) : Check Bool := do
  if !(← executableRva v rva want.length) then return false
  else sameBytes rva want 0

def fnv1a (v : ImageView) (rva size : Nat) : Check UInt64 := do
  if !(← executableRva v rva size) then return 0
  else
    (List.range size).foldlM (fun hash i => do
      let byte ← byteAt (← sum32 rva i)
      return (hash ^^^ byte.toUInt64) * 0x100000001B3) (0xCBF29CE484222325 : UInt64)

def callTo (v : ImageView) (rva target : Nat) (opcode : Bytes) : Check Bool := do
  let length := opcode.length
  if !(← executableRva v rva (length + 4)) then return false
  else if !(← sameBytes rva opcode 0) then return false
  else
  let displacement ← u32In rva length
  return (rva + (length + 4) : Int) + Int.bmod displacement (2 ^ 32) = target

def directCall (v : ImageView) (rva target : Nat) : Check Bool := callTo v rva target [0xE8]

def loaderCall (v : ImageView) (rva iat : Nat) : Check Bool := callTo v rva iat [0xFF, 0x15]

def relocatedPointer (v : ImageView) (exeBase rva targetRva : Nat) : Check Bool := do
  if !(← mappedRva v rva 8) then return false
  else return (← u64 rva) = (exeBase + targetRva) % 2 ^ 64

def scanDelay (v : ImageView) (delayRva : Nat) : Nat → Nat → Check Bool
  | 0, _ => return false
  | left + 1, d => do
    let at_ ← sum32 delayRva (d * 32)
    returnIf (¬(← mappedRva v at_ 32))
    let attrs ← u32 at_
    let nameRva ← u32In at_ 4
    let module_ ← u32In at_ 8
    let first ← u32In at_ 12
    let original ← u32In at_ 16
    let bound ← u32In at_ 20
    let unload ← u32In at_ 24
    let stamp ← u32In at_ 28
    if attrs = 0 ∧ nameRva = 0 ∧ module_ = 0 ∧ first = 0 ∧ original = 0 ∧ bound = 0 ∧ unload = 0 ∧
        stamp = 0 then return true
    else
    returnIf (attrs ≠ 1 ∨ nameRva = 0 ∨ first = 0 ∨ original = 0)
    returnIf (¬(← mappedRva v nameRva 1))
    returnIf (¬(← mappedRva v first 8))
    returnIf (¬(← mappedRva v original 8))
    returnIf (← cstringContainsLibovr v nameRva)
    scanDelay v delayRva left (d + 1)

/-- The imports of `LoadLibraryW` that were met: the slot of the last, and how many. -/
structure Load where
  loadSlot : Option Nat := .none
  loadCount : Nat := 0

def namesLoad (v : ImageView) (kernel : Bool) (name : Nat) : Check Bool :=
  if kernel then cstringEquals v name (cstring "LoadLibraryW") else return false

def scanThunks (v : ImageView) (kernel : Bool) (original first : Nat) :
    Nat → Nat → Load → Check (Bool × Load)
  | 0, _, load => return (false, load)
  | left + 1, i, load => do
    let entry := original + i * 8
    let slotRva := first + i * 8
    returnIf (0xFFFFFFFF < entry ∨ 0xFFFFFFFF < slotRva)
    returnIf (¬(← mappedRva v entry 8))
    returnIf (¬(← mappedRva v slotRva 8))
    let thunk ← u64 entry
    if thunk = 0 then return (true, load)
    else if 2 ^ 63 ≤ thunk then
      returnIf (2 ^ 63 + 0xFFFF < thunk)
      scanThunks v kernel original first left (i + 1) load
    else
      returnIf (0xFFFFFFFF < thunk)
      returnIf (¬(← mappedRva v thunk 3))
      let name ← sum32 thunk 2
      let loads ← namesLoad v kernel name
      returnIf (loads ∧ slotRva ≠ kLoadLibraryIatRva)
      scanThunks v kernel original first left (i + 1)
        (if loads then { loadSlot := some slotRva, loadCount := load.loadCount + 1 } else load)

def scanImports (v : ImageView) (importRva : Nat) : Nat → Nat → Load → Check (Bool × Load)
  | 0, _, load => return (false, load)
  | left + 1, d, load => do
    let at_ ← sum32 importRva (d * 20)
    returnIf (¬(← mappedRva v at_ 20))
    let original ← u32 at_
    let stamp ← u32In at_ 4
    let chain ← u32In at_ 8
    let nameRva ← u32In at_ 12
    let first ← u32In at_ 16
    if original = 0 ∧ stamp = 0 ∧ chain = 0 ∧ nameRva = 0 ∧ first = 0 then return (true, load)
    else
    returnIf (original = 0 ∨ nameRva = 0 ∨ first = 0)
    returnIf (¬(← mappedRva v original 8))
    returnIf (¬(← mappedRva v first 8))
    returnIf (¬(← mappedRva v nameRva 1))
    let kernel ← cstringEquals v nameRva (cstring "KERNEL32.dll")
    returnIf (← cstringContainsLibovr v nameRva)
    let (terminated, load) ← scanThunks v kernel original first 65536 0 load
    returnIf (¬terminated)
    scanImports v importRva left (d + 1) load

def checkDelay (v : ImageView) : Check Unit := do
  if 13 < v.directoryCount then
    let delayRva ← u32In v.optional (112 + 13 * 8)
    let delaySize ← u32In v.optional (112 + 13 * 8 + 4)
    if delayRva ≠ 0 ∨ delaySize ≠ 0 then
      returnIf (delayRva = 0 ∨ delaySize < 32 ∨ v.imageSize < delayRva + delaySize)
      returnIf (¬(← mappedRva v delayRva delaySize))
      returnIf (¬(← scanDelay v delayRva (delaySize / 32) 0))

def fingerprints : List (Nat × Nat × UInt64) :=
  [(0x8D52A0, 0xF3, 0xD7AF874FE886692F), (0x4E4AA0, 0x2C7, 0x004862E1F4FCB501),
   (0x4E4630, 0x23C, 0x6A3EB060D842540A), (0x4E4870, 0x230, 0x8ECA07CE9341C07E),
   (0x4E8530, 0x155, 0x7ADD324C355953AB), (0x4E70D0, 0x984, 0x94C8ABF435366D27),
   (0x4E6D40, 0x390, 0x586738379777C71F), (0x4E0E60, 0xC7, 0xB21D5E8AF10A5286),
   (0x4E8230, 0x3A, 0x0193764C73F7D26C), (0x4E5CA0, 0x65, 0xFCBA4A2866DCD117),
   (0x4E86B0, 0x20, 0xF250867D8F233B0E)]

def codeBytes : List (Nat × Bytes) :=
  [(0x8D530B, [0xC7, 0x44, 0x24, 0x28, 1, 0, 0, 0]),
   (0x8D5318, [0xC7, 0x44, 0x24, 0x2C, 2, 0, 0, 0]),
   (0x8D5320, [0xC7, 0x44, 0x24, 0x30, 3, 0, 0, 0]),
   (0x8D5328, [0x84, 0xC0, 0x75, 0x45]),
   (0x8D533C, [0xFF, 0xC7, 0x48, 0x83, 0xC6, 0x04, 0x83, 0xFF, 0x03, 0x72, 0xE1]),
   (0x4E4D50, [0xFF, 0x50, 0x08]),
   (0x4E467C, [0x84, 0xC0, 0x74, 0x31]),
   (0x4E46B1, [0x32, 0xC0]),
   (0x4E710E, [0x48, 0x85, 0xC0, 0x75, 0x1D, 0xB8, 0x47, 0xF4, 0xFF, 0xFF])]

def directCalls : List (Nat × Nat) :=
  [(0x8D5337, 0x4E4AA0), (0x4E4666, 0x4E8530), (0x4E860F, 0x4E70D0), (0x4E7102, 0x4E6D40),
   (0x4E5CF3, 0x4E86B0)]

def relocatedPointers : List (Nat × Nat) :=
  [(0x4E243F8, 0x4E4630), (0x4E24400, 0x4E5CA0), (0x4E245C0, 0x4E4870)]

def continuation : Bytes := [0x48, 0x8B, 0xCB, 0x48, 0x8B, 0xF0]

def checkCode (v : ImageView) (exeBase : Nat) : Check Unit := do
  setStage .fingerprints
  fingerprints.forM fun (rva, size, expected) => do returnIf ((← fnv1a v rva size) ≠ expected)
  setStage .callChain
  codeBytes.forM fun (rva, want) => do returnIf (¬(← bytes v rva want))
  directCalls.forM fun (rva, target) => do returnIf (¬(← directCall v rva target))
  relocatedPointers.forM fun (rva, target) => do
    returnIf (¬(← relocatedPointer v exeBase rva target))

def validateMapped (exeBase span : Nat) : Check OculusProfileMatch := do
  let v ← imageView exeBase span
  setStage .imports
  returnIf (v.directoryCount ≤ 1)
  let importRva ← u32In v.optional (112 + 8)
  let importSize ← u32In v.optional (112 + 12)
  returnIf (importRva = 0 ∨ importSize = 0)
  returnIf (¬(← mappedRva v importRva importSize))
  returnIf (importSize < 20)
  setStage .delayImports
  checkDelay v
  setStage .imports
  let (terminated, load) ← scanImports v importRva (importSize / 20) 0 {}
  returnIf (¬terminated ∨ load.loadCount ≠ 1)
  let loadSlot ← orReturn load.loadSlot
  checkCode v exeBase
  returnIf (¬(← loaderCall v kLoaderCallRva kLoadLibraryIatRva))
  returnIf (¬(← bytes v kLoaderReturnRva continuation))
  return { loadLibrarySlot := some (exeBase + loadSlot), callerReturnRva := kLoaderReturnRva }

def eliteOculusProfileValidateMapped (exeBase mappedSize : Nat) (memory : View) :
    Option (Bool × OculusProfileMatch) :=
  match validateMapped exeBase mappedSize memory .header with
  | (.ok found, _) => some (true, found)
  | (.error .returned, stage) => some (false, { failureStage := stage })
  | (.error .fault, _) => .none

end EdvrPatch.Oculus
