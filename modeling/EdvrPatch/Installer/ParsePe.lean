import EdvrPatch.Installer.Probe
import EdvrPatch.Lib.Guarded

/-! The export table of an image (`probe.cpp`). The file is a view; places in it are
computed with 64 bits, the numbers that it holds have 32 or 16. -/
namespace EdvrPatch.Installer.Pe

open Lib Lib.Guarded

abbrev PeReader := Lib.Guarded PeFacts

def ascii (s : String) : Bytes :=
  s.toList.map fun c => .ofNat c.toNat

structure SectionHeader where
  virtualSize : UInt32
  virtualAddress : UInt32
  sizeOfRawData : UInt32
  pointerToRawData : UInt32
  characteristics : UInt32

def sectionAt (sections : UInt64) (i : Nat) : PeReader SectionHeader := do
  let s := sections + 40 * .ofNat i
  let virtualSize ← wordAt (s + 8).toNat
  let virtualAddress ← wordAt (s + 12).toNat
  let sizeOfRawData ← wordAt (s + 16).toNat
  let pointerToRawData ← wordAt (s + 20).toNat
  let characteristics ← wordAt (s + 36).toNat
  return { virtualSize, virtualAddress, sizeOfRawData, pointerToRawData, characteristics }

def SectionHeader.offsetOf (s : SectionHeader) (rva fileSize : UInt32) : Option UInt32 :=
  let delta := rva - s.virtualAddress
  if s.sizeOfRawData ≤ delta then none
  else if fileSize ≤ s.pointerToRawData ∨ fileSize - s.pointerToRawData ≤ delta then none
  else
    let off := s.pointerToRawData + delta
    if fileSize ≤ off then none else some off

def SectionHeader.holds (s : SectionHeader) (rva : UInt32) : Bool :=
  let size := if s.virtualSize ≠ 0 then s.virtualSize else s.sizeOfRawData
  s.virtualAddress ≤ rva && rva - s.virtualAddress < size

def rvaToOffset (sections : UInt64) (rva fileSize : UInt32) : List Nat → PeReader (Option UInt32)
  | [] => return none
  | i :: is => do
    let s ← sectionAt sections i
    if s.holds rva then return s.offsetOf rva fileSize else rvaToOffset sections rva fileSize is

def sectionOf (sections : UInt64) (rva : UInt32) : List Nat → PeReader (Option SectionHeader)
  | [] => return none
  | i :: is => do
    let s ← sectionAt sections i
    if s.virtualAddress ≤ rva ∧ rva - s.virtualAddress < s.sizeOfRawData then return some s
    else sectionOf sections rva is

def memchr (i : Nat) : Nat → PeReader Bool
  | 0 => return false
  | n + 1 => do
    let b ← byteAt i
    if b = 0 then return true else memchr (i + 1) n

def strcmp (i : Nat) : Bytes → PeReader Bool
  | [] => do
    let b ← byteAt i
    return b == 0
  | c :: cs => do
    let b ← byteAt i
    if b = c then strcmp (i + 1) cs else return false

def strncmp (i : Nat) : Bytes → PeReader Bool
  | [] => return true
  | c :: cs => do
    let b ← byteAt i
    if b = c then strncmp (i + 1) cs else return false

def providers : List Bytes :=
  ["D3D11CreateDevice", "D3D11CreateDeviceAndSwapChain", "edvrAcquireNativeGraphics",
    "edvrAcquireNativeMenu", "edvrAcquireNativeTemporal", "edvrAcquireNativeSharpen",
    "edvrAcquireNativeFrame", "edvrAcquireNativeFss", "edvrAcquireNativeTiming",
    "edvrAcquireGraphicsBridge", "edvrAcquireRenderBoundary", "edvrQueryNativeRenderSettings",
    "edvrPublishNativeRenderSizing", "edvrQueryNativeRenderSizing"].map ascii

def runtimeNames : List Bytes :=
  ["VRControlPanel", "VRDashboardManager", "VRTrackedCamera", "VR_GetGenericInterface",
    "VR_GetInitToken", "VR_GetStringForHmdError", "VR_GetVRInitErrorAsEnglishDescription",
    "VR_GetVRInitErrorAsSymbol", "VR_InitInternal", "VR_IsHmdPresent",
    "VR_IsInterfaceVersionValid", "VR_IsRuntimeInstalled", "VR_RuntimePath",
    "VR_ShutdownInternal", "edvrConfigureNativeRuntime", "edvrGetNativeRuntimeStatus"].map ascii

structure Headers where
  exportAddress : UInt32
  exportSize : UInt32
  sections : UInt64
  sectionCount : UInt16

def readHeaders (size : UInt32) : PeReader Headers := do
  returnIf (size < 64)
  let dos ← halfAt 0
  returnIf (dos ≠ 0x5A4D)
  let lfanew ← wordAt 60
  returnIf (lfanew.toInt32 ≤ 0 ∨ size.toUInt64 < lfanew.toUInt64 + 264)
  let nt := lfanew.toUInt64
  let signature ← wordAt nt.toNat
  returnIf (signature ≠ 0x4550)
  let magic ← halfAt (nt + 24).toNat
  let machine ← halfAt (nt + 4).toNat
  let is64 := magic == 0x20B && machine == 0x8664
  returnIf (is64 = false ∧ magic ≠ 0x10B)
  let directories ← wordAt (nt + if is64 then 132 else 116).toNat
  returnIf (directories ≤ 0)
  let exportAddress ← wordAt (nt + if is64 then 136 else 120).toNat
  let exportSize ← wordAt (nt + if is64 then 140 else 124).toNat
  Lib.Guarded.modify fun facts => { facts with is64, parsed := true }
  returnIf (exportAddress = 0 ∨ exportSize = 0)
  let optionalSize ← halfAt (nt + 20).toNat
  let sections := nt + 24 + optionalSize.toUInt64
  let sectionCount ← halfAt (nt + 6).toNat
  returnIf (sectionCount = 0 ∨ 96 < sectionCount)
  returnIf (size.toUInt64 < sections + 40 * sectionCount.toUInt64)
  return { exportAddress, exportSize, sections, sectionCount }

def Headers.indices (h : Headers) : List Nat :=
  List.range h.sectionCount.toNat

structure Exports where
  directory : UInt64
  nameCount : UInt32
  functionCount : UInt32
  names : UInt64
  functions : UInt64
  ordinals : UInt64

def readExports (size : UInt32) (h : Headers) : PeReader Exports := do
  let place ← rvaToOffset h.sections h.exportAddress size h.indices
  let expOff ← orReturn place
  returnIf (size.toUInt64 < expOff.toUInt64 + 40)
  let directory := expOff.toUInt64
  let nameCount ← wordAt (directory + 24).toNat
  returnIf (nameCount = 0 ∨ 65535 < nameCount)
  let addressOfNames ← wordAt (directory + 32).toNat
  let place ← rvaToOffset h.sections addressOfNames size h.indices
  let namesOff ← orReturn place
  returnIf (size.toUInt64 < namesOff.toUInt64 + nameCount.toUInt64 * 4)
  let functionCount ← wordAt (directory + 20).toNat
  returnIf (functionCount = 0 ∨ 65536 < functionCount ∨ functionCount < nameCount)
  let addressOfFunctions ← wordAt (directory + 28).toNat
  let place ← rvaToOffset h.sections addressOfFunctions size h.indices
  let functionsOff ← orReturn place
  let addressOfOrdinals ← wordAt (directory + 36).toNat
  let place ← rvaToOffset h.sections addressOfOrdinals size h.indices
  let ordinalsOff ← orReturn place
  returnIf ((size - functionsOff).toUInt64 / 4 < functionCount.toUInt64)
  returnIf ((size - ordinalsOff).toUInt64 / 2 < nameCount.toUInt64)
  return { directory, nameCount, functionCount, names := namesOff.toUInt64,
           functions := functionsOff.toUInt64, ordinals := ordinalsOff.toUInt64 }

def isOneOf (name : Nat) : List Bytes → PeReader Bool
  | [] => return false
  | n :: names => do
    let equal ← strcmp name n
    if equal then return true else isOneOf name names

/-- Which of the known names have been met, where meeting one counts. -/
def markFound (name : Nat) (counts : Nat → Bool) : List Bytes → Nat → List Bool → PeReader (List Bool)
  | n :: names, j, f :: found => do
    let equal ← strcmp name n
    let rest ← markFound name counts names (j + 1) found
    return (f || (equal && counts j)) :: rest
  | _, _, found => return found

/-- The marker of the native startup: four words in read-only data. -/
def readMarker (size rva functionOff : UInt32) (s : SectionHeader) : PeReader Unit := do
  let delta := rva - s.virtualAddress
  if 16 ≤ size - functionOff ∧ 16 ≤ s.sizeOfRawData - delta ∧ s.characteristics &&& 0x40000000 ≠ 0 ∧
      s.characteristics &&& 0xA0000000 = 0 then
    let a ← wordAt functionOff.toNat
    let b ← wordAt (functionOff.toNat + 4)
    let c ← wordAt (functionOff.toNat + 8)
    let d ← wordAt (functionOff.toNat + 12)
    Lib.Guarded.modify fun facts =>
      { facts with nativeMarkerValid := a == 16 && b == 1 && c == 1 && d == 0 }
  else return ()

structure Found where
  providers : List Bool
  runtime : List Bool

def readName (size : UInt32) (h : Headers) (e : Exports) (found : Found) (i : Nat) : PeReader Found := do
  let nameRva ← wordAt (e.names + 4 * .ofNat i).toNat
  let place ← rvaToOffset h.sections nameRva size h.indices
  let off ← orReturn place
  let name := off.toNat
  let terminated ← memchr name (size - off).toNat
  returnIf (terminated = false)
  let ordinal ← halfAt (e.ordinals + 2 * .ofNat i).toNat
  returnIf (e.functionCount ≤ ordinal.toUInt32)
  let rva ← wordAt (e.functions + 4 * ordinal.toUInt64).toNat
  let place ← rvaToOffset h.sections rva size h.indices
  let functionOff ← orReturn place
  returnIf (h.exportAddress ≤ rva ∧ rva - h.exportAddress < h.exportSize)
  let place ← sectionOf h.sections rva h.indices
  let s ← orReturn place
  let executable := s.characteristics &&& 0x20000000 != 0
  let ours ← strncmp name (ascii "edvr")
  Lib.Guarded.modify fun facts => { facts with hasEdvr := facts.hasEdvr || ours }
  let vrInit ← isOneOf name [ascii "VR_InitInternal", ascii "VR_GetGenericInterface"]
  Lib.Guarded.modify fun facts => { facts with hasVrInit := facts.hasVrInit || vrInit }
  let create ← strcmp name (ascii "D3D11CreateDevice")
  Lib.Guarded.modify fun facts => { facts with hasD3d11Create := facts.hasD3d11Create || create }
  let loader ← strcmp name (ascii "xrGetInstanceProcAddr")
  Lib.Guarded.modify fun facts =>
    { facts with hasXrGetInstanceProcAddr := facts.hasXrGetInstanceProcAddr || (loader && executable) }
  let configure ← strcmp name (ascii "edvrConfigureNativeRuntime")
  Lib.Guarded.modify fun facts =>
    { facts with hasNativeConfigure := facts.hasNativeConfigure || (configure && executable) }
  let provided ← markFound name (fun _ => executable) providers 0 found.providers
  let runtime ← markFound name (fun j => executable && ordinal.toNat == j) runtimeNames 0 found.runtime
  let marker ← strcmp name (ascii "edvrNativeStartupRouting")
  if marker then
    readMarker size rva functionOff s
    return { providers := provided, runtime }
  else return { providers := provided, runtime }

def parsePeBody (size : UInt32) : PeReader Unit := do
  let h ← readHeaders size
  let e ← readExports size h
  let found ← (List.range e.nameCount.toNat).foldlM (readName size h e)
    { providers := providers.map fun _ => false, runtime := runtimeNames.map fun _ => false }
  Lib.Guarded.modify fun facts => { facts with nativeGraphicsProviders := found.providers.all id }
  let base ← wordAt (e.directory + 16).toNat
  Lib.Guarded.modify fun facts =>
    { facts with
      nativeRuntimeExports := base == 1 && e.functionCount.toNat == runtimeNames.length &&
        e.nameCount == e.functionCount && found.runtime.all id }

def parsePe (v : View) (size : UInt32) : PeFacts :=
  match parsePeBody size v {} with
  | (.error .fault, facts) => { facts with parsed := false }
  | (_, facts) => facts

end EdvrPatch.Installer.Pe
