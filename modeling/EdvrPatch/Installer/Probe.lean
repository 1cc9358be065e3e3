import EdvrPatch.Installer.FileSystem

/-! What a DLL on disk is (`probe.cpp`). The export table itself is read by the
host; what the installer makes of it is here. -/
namespace EdvrPatch.Installer

inductive DllKind where
  | absent
  | unreadable
  | edvr
  | openVrRuntime
  | d3d11Provider
  | foreign
  deriving DecidableEq, Repr

structure PeFacts where
  parsed : Bool := false
  is64 : Bool := false
  hasEdvr : Bool := false
  hasVrInit : Bool := false
  hasD3d11Create : Bool := false
  hasXrGetInstanceProcAddr : Bool := false
  hasNativeConfigure : Bool := false
  nativeMarkerValid : Bool := false
  nativeGraphicsProviders : Bool := false
  nativeRuntimeExports : Bool := false
  deriving DecidableEq, Repr

/-- A file as the survey sees it; `sizeText` is its size in megabytes as the
report prints it. -/
structure DllInfo where
  kind : DllKind := .absent
  path : Text := []
  is64 : Bool := false
  sizeText : Text := []
  nativeRuntimeExports : Bool := false
  product : Text := []
  description : Text := []
  company : Text := []
  fileVersion : Text := []
  sha256 : Text := []
  deriving DecidableEq, Repr

/-- What is read out of an image: its export table (`parsePe`), the fields of its
version resource, and the size as text. -/
structure ImageReader extends FileAccess where
  parsePe : Text → PeFacts
  versionString : Text → Text → Text
  sizeText : Nat → Text

def maxImageSize : Nat := 64 * 2 ^ 20

/-- Ours first: a proxy of ours exports everything the DLL it stands in for does. -/
def kindOf (facts : PeFacts) : DllKind :=
  if facts.hasEdvr then .edvr
  else if facts.hasVrInit then .openVrRuntime
  else if facts.hasD3d11Create then .d3d11Provider
  else .foreign

def sha256Of (host : Host) (access : FileAccess) (fs : FileSystem) (path : Text) : Text :=
  if access.readable path then ((fs.read path).map host.sha256).getD [] else []

def probeContent (host : Host) (images : ImageReader) (fs : FileSystem) (path content : Text) : DllInfo :=
  if content = [] ∨ maxImageSize < content.length then { path := path, kind := .unreadable }
  else
    let facts := if images.maps path then images.parsePe content else {}
    if ¬facts.parsed then
      { path := path, kind := .unreadable, sizeText := images.sizeText content.length }
    else
      { path := path
        kind := kindOf facts
        is64 := facts.is64
        sizeText := images.sizeText content.length
        nativeRuntimeExports := facts.nativeRuntimeExports
        product := images.versionString content "ProductName".toList
        description := images.versionString content "FileDescription".toList
        company := images.versionString content "CompanyName".toList
        fileVersion := images.versionString content "FileVersion".toList
        sha256 := sha256Of host images.toFileAccess fs path }

/-- A file that is there and does not open is not planned around as an empty slot. -/
def probeDll (host : Host) (images : ImageReader) (fs : FileSystem) (path : Text) : DllInfo :=
  match fs.read path with
  | none => { path := path }
  | some content =>
    if images.opens path then probeContent host images fs path content
    else { path := path, kind := .unreadable }

def containsNoCase (hay needle : Text) : Bool :=
  (lower hay).tails.any (lower needle).isPrefixOf

def modWords : List (Text × Text) :=
  [("reshade".toList, "ReShade".toList), ("3dmigoto".toList, "EDHM".toList),
    ("edhm".toList, "EDHM".toList), ("dxvk".toList, "DXVK".toList),
    ("opencomposite".toList, "OpenComposite".toList), ("special k".toList, "Special K".toList)]

def modNameOf (info : DllInfo) : Text :=
  ([info.product, info.description, info.company].findSome? fun field =>
    (modWords.find? fun word => containsNoCase field word.1).map Prod.snd).getD []

def chainNameFor (info : DllInfo) : Text :=
  let mod := modNameOf info
  if mod = "ReShade".toList then "d3d11_reshade.dll".toList
  else if mod = "EDHM".toList then "d3d11_edhm.dll".toList
  else if mod = "DXVK".toList then "d3d11_dxvk.dll".toList
  else if mod = "Special K".toList then "d3d11_specialk.dll".toList
  else "d3d11_other.dll".toList

def describeDll (info : DllInfo) : Text :=
  match info.kind with
  | .absent => "not present".toList
  | .unreadable => "present, but unreadable (locked, or not a DLL)".toList
  | kind =>
    let mod := modNameOf info
    let name :=
      if kind = .edvr then "EDVR".toList
      else if mod ≠ [] then mod
      else if info.product ≠ [] then info.product
      else if kind = .openVrRuntime then "the game's OpenVR runtime".toList
      else if kind = .d3d11Provider then "another d3d11 mod".toList
      else "an unrecognised DLL".toList
    let version := if info.fileVersion = [] then [] else ' ' :: info.fileVersion
    name ++ version ++ " (".toList ++ info.sizeText ++ " MB".toList ++
      (if info.is64 then [] else ", 32-bit".toList) ++ [')']

end EdvrPatch.Installer
