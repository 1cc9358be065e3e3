import EdvrPatch.Installer.Paths
import EdvrPatch.Installer.Plan

/-! Looking at the game folder (`surveyTarget`), and where the survey has every file
it speaks of. A directory is listed in lower case, and 8.3 names are not listed. -/
namespace EdvrPatch.Installer

def kGameExe : Text := "EliteDangerous64.exe".toList

def kEliteSha : Text :=
  "e6be8bbe04e6a7ae226d4318945af7f367de13dc5a007a261964d9ba8144e988".toList

inductive GameRunState where
  | notRunning
  | thisFolder
  | otherFolder
  deriving DecidableEq, Repr

structure Machine where
  running : GameRunState := .notRunning
  nvidiaAdapter : Bool := false
  deriving DecidableEq, Repr

/-- The name below a directory that one of its paths ends in; paths are kept in
lower case. -/
def nameBelow (dir path : Text) : Option Text :=
  let name := path.drop (dirPrefix dir).length
  if path = lower (dirPrefix dir ++ name) ∧ FileName name then some name else none

def subdirsOf (fs : FileSystem) (dir : Text) : List Text :=
  (fs.dirs.filterMap (nameBelow dir)).filter fun name => name ≠ ".".toList ∧ name ≠ "..".toList

def likeD3d11 (name : Text) : Bool :=
  "d3d11_".toList.isPrefixOf name && ".dll".toList.isSuffixOf (name.drop 6)

def filesLike (fs : FileSystem) (dir : Text) : List Text :=
  (fs.files.filterMap fun entry => nameBelow dir entry.1).filter likeD3d11

def openvrFolders (gameDir : Text) : List Text :=
  [joinPath gameDir kOpenvrFolder, joinPath gameDir "Openvr".toList, gameDir]

/-- The search goes by file and accepts the renamed original too. -/
def findOpenvrDir (fs : FileSystem) (gameDir : Text) : Text :=
  ((openvrFolders gameDir).find? fun dir => fs.dirExists dir &&
    (fs.fileExists (joinPath dir kOpenvr) || fs.fileExists (joinPath dir kOpenvrOrig))).getD []

section

variable (host : Host) (images : ImageReader)

def qualifiedEliteExecutable (fs : FileSystem) (path : Text) : Bool :=
  sha256Of host images.toFileAccess fs path = kEliteSha

def surveyText (fs : FileSystem) (path : Text) : DllInfo :=
  if fs.fileExists path then
    { path := path
      sha256 := sha256Of host images.toFileAccess fs path
      kind := if sha256Of host images.toFileAccess fs path = [] then .unreadable else .foreign }
  else { path := path }

def runtimeBackups (fs : FileSystem) (gameDir : Text) : List Text :=
  let backups := backupRootPath gameDir
  if fs.dirExists backups then
    let stamps := (subdirsOf fs backups).insertionSort fun a b => b ≤ a
    (stamps.map fun stamp => joinPath (joinPath backups stamp) kOpenvr).filter fun candidate =>
      fs.fileExists candidate ∧ (probeDll host images fs candidate).kind = .openVrRuntime
  else []

def surveyDir (fs : FileSystem) (game : GameInstall) : Text :=
  let dir := if game.openvrDir = [] then findOpenvrDir fs game.dir else game.openvrDir
  if dir = [] then joinPath game.dir kOpenvrFolder else dir

def surveyTarget (machine : Machine) (fs : FileSystem) (game : GameInstall) : Survey :=
  let dir := game.dir
  let openvrDir := surveyDir fs game
  let probe := probeDll host images fs
  let iniPath := joinPath dir kIni
  { game := { dir := dir, openvrDir := openvrDir }
    eliteProfileValid := qualifiedEliteExecutable host images fs (joinPath dir kGameExe)
    gameRunningHere := machine.running = .thisFolder
    gameRunningElsewhere := machine.running = .otherFolder
    d3d11 := probe (joinPath dir kD3d11)
    otherD3d11 := (filesLike fs dir).map fun name => probe (joinPath dir name)
    iniPresent := fs.fileExists iniPath
    iniText := if fs.fileExists iniPath then readTextFile images.toFileAccess fs iniPath else []
    baseIniText := readTextFile images.toFileAccess fs (baseIniPath dir)
    state := readState images.toFileAccess fs dir
    ngx := probe (joinPath dir kNgx)
    nvidiaAdapter := machine.nvidiaAdapter
    haveOpenvrDir := fs.dirExists openvrDir
    openxrLoader := probe (joinPath openvrDir kLoader)
    nativeConfig := surveyText host images fs (joinPath openvrDir kNativeConfig)
    openxrLicense := surveyText host images fs (joinPath openvrDir kLicense)
    openvrCurrent := probe (joinPath openvrDir kOpenvr)
    openvrOrigName := kOpenvrOrig
    openvrOrig := probe (joinPath openvrDir kOpenvrOrig)
    openvrOrigInBackups := runtimeBackups host images fs dir
    haveRecord := fs.fileExists (statePath dir)
    haveBaseIni := fs.fileExists (baseIniPath dir) }

end

structure Survey.Located (s : Survey) : Prop where
  ne_nil : s.game.openvrDir ≠ []
  folder : s.game.openvrDir ∈ openvrFolders s.game.dir
  d3d11 : s.d3d11.path = joinPath s.game.dir kD3d11
  ngx : s.ngx.path = joinPath s.game.dir kNgx
  openxrLoader : s.openxrLoader.path = joinPath s.game.openvrDir kLoader
  openxrLicense : s.openxrLicense.path = joinPath s.game.openvrDir kLicense
  nativeConfig : s.nativeConfig.path = joinPath s.game.openvrDir kNativeConfig
  openvrCurrent : s.openvrCurrent.path = joinPath s.game.openvrDir kOpenvr
  openvrOrig : s.openvrOrig.path = joinPath s.game.openvrDir kOpenvrOrig
  openvrOrigName : s.openvrOrigName = kOpenvrOrig
  siblings : ∀ info ∈ s.otherD3d11, info.kind ≠ .absent ∧ ∃ name, FileName name ∧
    "d3d11_".toList <+: lower name ∧ info.path = joinPath s.game.dir name
  backups : ∀ path ∈ s.openvrOrigInBackups, ∃ stamp, FileName stamp ∧
    path = joinPath (joinPath (backupRootPath s.game.dir) stamp) kOpenvr

def GameInstall.Found (game : GameInstall) : Prop :=
  game.openvrDir = [] ∨ game.openvrDir ∈ openvrFolders game.dir

end EdvrPatch.Installer
