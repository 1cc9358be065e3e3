import EdvrPatch.Installer.Apply
import EdvrPatch.Installer.Probe
import EdvrPatch.Installer.State

/-! Deciding what to do, separately from doing it (`plan.cpp`). Both planners are
functions of a survey of the game folder. They collect their steps, and what
they have to say, in a draft. -/
namespace EdvrPatch.Installer

open Ini

def kD3d11 : Text := "d3d11.dll".toList
def kIni : Text := "edvr.ini".toList
def kOpenvr : Text := "openvr_api.dll".toList
def kOpenvrOrig : Text := "openvr_api_orig.dll".toList
def kNgx : Text := "nvngx_dlss.dll".toList
def kLoader : Text := "openxr_loader.dll".toList
def kLicense : Text := "OPENXR-LOADER-LICENSE.txt".toList
def kNativeConfig : Text := "edvr_openxr.ini".toList
def kOpenvrFolder : Text := "Openvr\\win64".toList

def kRunningElsewhere : Text :=
  ("Elite Dangerous is running, but from a different folder -- this install is not the one in " ++
    "use, so it can be changed.").toList

structure GameInstall where
  dir : Text := []
  openvrDir : Text := []
  deriving DecidableEq, Repr

structure PayloadInfo where
  version : Text := []
  haveD3d11 : Bool := false
  d3d11Sha : Text := []
  haveOpenvr : Bool := false
  openvrSha : Text := []
  haveNgx : Bool := false
  ngxSha : Text := []
  nativePairValid : Bool := false
  haveOpenxrLoader : Bool := false
  openxrLoaderSha : Text := []
  haveOpenxrLicense : Bool := false
  openxrLicenseSha : Text := []
  iniText : Text := []
  deriving DecidableEq, Repr

/-- The folder as it is right now. The last two fields are what `planUninstall`
asks the disk for itself. -/
structure Survey where
  game : GameInstall := {}
  gameRunningHere : Bool := false
  gameRunningElsewhere : Bool := false
  d3d11 : DllInfo := {}
  openxrLoader : DllInfo := {}
  nativeConfig : DllInfo := {}
  openxrLicense : DllInfo := {}
  otherD3d11 : List DllInfo := []
  iniPresent : Bool := false
  iniText : Text := []
  baseIniText : Text := []
  ngx : DllInfo := {}
  nvidiaAdapter : Bool := false
  haveOpenvrDir : Bool := false
  openvrCurrent : DllInfo := {}
  openvrOrig : DllInfo := {}
  openvrOrigName : Text := []
  openvrOrigInBackups : List Text := []
  state : InstallState := {}
  eliteProfileValid : Bool := false
  haveRecord : Bool := false
  haveBaseIni : Bool := false
  deriving DecidableEq, Repr

structure Options where
  keepSettings : Bool := true
  repair : Bool := false
  removeSettings : Bool := false
  backupStamp : Text := []
  nowUtc : Text := []
  deriving DecidableEq, Repr

structure Plan where
  steps : List Step := []
  notes : List Text := []
  problems : List Text := []
  blocked : Bool := false
  nothingToDo : Bool := false
  merge : MergeReport := {}
  nextState : InstallState := {}
  backupDir : Text := []
  deriving DecidableEq, Repr

def Plan.work (plan : Plan) : Work :=
  { steps := plan.steps, blocked := plan.blocked, backupDir := plan.backupDir }

def siblingNamed (siblings : List DllInfo) (leaf : Text) : Option DllInfo :=
  siblings.find? fun info => sameKey (leafOf info.path) leaf

def parkedAs (s : Survey) (leaf : Text) : Option DllInfo :=
  (siblingNamed s.otherD3d11 leaf).filter (·.kind ≠ .absent)

def hasDotDot (value : Text) : Bool :=
  value.tails.any "..".toList.isPrefixOf

/-- A file name out of a text people edit, accepted only if it really is one. -/
def safeSiblingName (value mustNotEqual : Text) : Text :=
  if value = [] then []
  else if value.any fun c => c ∈ "\\/:*?\"<>|".toList then []
  else if value = ".".toList ∨ value = "..".toList ∨ hasDotDot value then []
  else if sameKey value mustNotEqual then []
  else if value.length < 5 ∨ ¬sameKey (value.drop (value.length - 4)) ".dll".toList then []
  else value

/-- The Openvr folder relative to the game folder, as the record holds it. -/
def relativeOpenvr (gameDir openvrDir : Text) : Text :=
  if openvrDir = [] then []
  else if gameDir.length < openvrDir.length ∧ sameKey (openvrDir.take gameDir.length) gameDir then
    (openvrDir.drop gameDir.length).dropWhile isSlash
  else openvrDir

/-! ### The draft of a plan -/

structure Draft where
  backupDir : Text
  next : InstallState := {}
  body : List Step := []
  forced : List (Text × Text) := []
  wantBackupDir : Bool := false
  changed : Bool := false
  notes : List Text := []
  problems : List Text := []
  merge : MergeReport := {}

namespace Draft

def note (d : Draft) (line : Text) : Draft :=
  { d with notes := d.notes ++ [line] }

def problem (d : Draft) (line : Text) : Draft :=
  { d with problems := d.problems ++ [line] }

def force (d : Draft) (name value : Text) : Draft :=
  { d with forced := d.forced ++ [(name, value)] }

def push (d : Draft) (step : Step) : Draft :=
  { d with body := d.body ++ [step] }

/-- A copy into the plan's own backup folder, of a file that may have gone. -/
def backup (d : Draft) (path why : Text) : Draft :=
  { d.push { action := .backup, source := path, target := joinPath d.backupDir (leafOf path),
             why := why } with
    wantBackupDir := true }

def backupOf (d : Draft) (path why sha : Text) : Draft :=
  { d.push { action := .backup, source := path, target := joinPath d.backupDir (leafOf path),
             why := why, expectSha := sha, required := true } with
    wantBackupDir := true }

def rename (d : Draft) (source target why sha : Text) : Draft :=
  { d.push { action := .rename, source := source, target := target, why := why, expectSha := sha,
             required := true } with
    changed := true }

def writePayload (d : Draft) (item target why : Text) : Draft :=
  { d.push { action := .writePayload, item := item, target := target, why := why } with
    changed := true }

def writeText (d : Draft) (text target why : Text) : Draft :=
  d.push { action := .writeText, text := text, target := target, why := why }

def remove (d : Draft) (path why sha : Text) : Draft :=
  { d.push { action := .delete, source := path, why := why, expectSha := sha } with
    changed := true }

def restore (d : Draft) (source target why : Text) : Draft :=
  { d.push { action := .backup, source := source, target := target, why := why,
             required := true } with
    changed := true }

end Draft

def backupDirOf (s : Survey) (o : Options) : Text :=
  joinPath (backupRootPath s.game.dir)
    (if o.backupStamp = [] then "backup".toList else o.backupStamp)

/-! ### Installing -/

def modSay (info : DllInfo) : Text :=
  if modNameOf info = [] then "That mod".toList else modNameOf info

/-- The name we want may be taken, by an earlier copy of the mod or by something
else. What is there goes into the backup folder. -/
def backupParked (s : Survey) (d : Draft) : Draft :=
  let chainLeaf := chainNameFor s.d3d11
  match parkedAs s chainLeaf with
  | none => d
  | some existing =>
    let modName := modNameOf s.d3d11
    let sameMod := modName ≠ [] ∧ modNameOf existing = modName
    let d := d.backup (joinPath s.game.dir chainLeaf)
      (if sameMod then
        "the older ".toList ++ modSay s.d3d11 ++ " copy already parked here".toList
      else "the file already parked under that name".toList)
    if sameMod then d
    else d.problem ("There was already a ".toList ++ chainLeaf ++
      (" here and it is not the same mod as the one in the d3d11.dll slot. It " ++
        "has been copied into the backup folder and replaced, so check that " ++
        "folder before deleting anything.").toList)

def sayUnchained (s : Survey) (d : Draft) : Draft :=
  if s.state.chainTarget ≠ [] ∧ ¬sameKey s.state.chainTarget (chainNameFor s.d3d11) ∧
      (parkedAs s s.state.chainTarget).isSome then
    d.problem ("EDVR was passing calls through ".toList ++ s.state.chainTarget ++
      (if s.state.chainMod = [] then [] else " (".toList ++ s.state.chainMod ++ [')']) ++
      ", and now passes them through ".toList ++ modSay s.d3d11 ++
      (" instead -- EDVR can only chain to one. The older one is still in the " ++
        "folder but nothing loads it. If you want that one back, set " ++
        "advanced.real_dll to it by hand.").toList)
  else d

def sayChained (s : Survey) (d : Draft) : Draft :=
  let chainLeaf := chainNameFor s.d3d11
  let d :=
    if s.state.d3d11Installed then
      d.note (modSay s.d3d11 ++ (" has replaced EDVR's d3d11.dll since the last install. Both " ++
        "are kept: it becomes ").toList ++ chainLeaf ++
        (", EDVR takes the d3d11.dll name back, and every call passes " ++
          "through to it.").toList)
    else
      d.note (modSay s.d3d11 ++ " is installed as d3d11.dll. It is renamed ".toList ++ chainLeaf ++
        (", EDVR takes its place, and " ++
          "advanced.real_dll points back at it -- both mods run.").toList)
  if s.d3d11.is64 then d
  else d.problem ("The d3d11.dll found in the game folder is 32-bit, which the 64-bit game " ++
    "cannot have been loading. It has been kept, but check what put it there.").toList

/-- Somebody else is in the slot: theirs is renamed, ours takes the name, and the
settings point at theirs. -/
def chainForeign (s : Survey) (p : PayloadInfo) (d : Draft) : Draft :=
  let dst := joinPath s.game.dir kD3d11
  let chainLeaf := chainNameFor s.d3d11
  let d := backupParked s d
  let d := d.backup dst
    ("the ".toList ++ modSay s.d3d11 ++ " d3d11.dll found in EDVR's place".toList)
  let d := d.rename dst (joinPath s.game.dir chainLeaf)
    ("moves ".toList ++ modSay s.d3d11 ++ " aside, keeping it installed".toList) s.d3d11.sha256
  let d := d.writePayload "d3d11".toList dst "installs EDVR's d3d11.dll in its place".toList
  let d := d.force "advanced.real_dll".toList chainLeaf
  let d := { d with next := { d.next with chainTarget := chainLeaf
                                          chainMod := modNameOf s.d3d11 } }
  let d := sayUnchained s d
  let d := { d with next := { d.next with d3d11Installed := true, d3d11Sha := p.d3d11Sha } }
  sayChained s d

def planD3d11 (s : Survey) (o : Options) (p : PayloadInfo) (d : Draft) : Draft :=
  let dst := joinPath s.game.dir kD3d11
  let cur := s.d3d11
  let installed (d : Draft) : Draft :=
    { d with next := { d.next with d3d11Installed := true, d3d11Sha := p.d3d11Sha } }
  if ¬p.haveD3d11 then d
  else
    match cur.kind with
    | .unreadable =>
      d.problem ("There is a d3d11.dll next to the game that cannot be read -- something has it " ++
        "open, or it is not a DLL. EDVR's own d3d11.dll was not installed; nothing else " ++
        "was touched.").toList
    | .edvr =>
      if cur.sha256 = p.d3d11Sha ∧ ¬o.repair then
        installed (d.note "d3d11.dll is already this build -- left alone.".toList)
      else
        installed <|
          ((d.backup dst "the EDVR d3d11.dll being replaced".toList).writePayload "d3d11".toList dst
            (if o.repair then "reinstalls EDVR's d3d11.dll".toList
            else "updates EDVR's d3d11.dll".toList)).note
            (if o.repair then "Reinstalling d3d11.dll (the fixes).".toList
            else "Updating d3d11.dll (the fixes).".toList)
    | .absent =>
      installed <|
        (d.writePayload "d3d11".toList dst "installs EDVR's d3d11.dll".toList).note
          (if s.state.d3d11Installed then
            ("Restoring d3d11.dll -- EDVR was installed here, and the file is gone. " ++
              "(EDHM's uninstaller runs `del d3d11.dll`, which after an EDVR install is " ++
              "ours.)").toList
          else "Installing d3d11.dll (the fixes).".toList)
    | _ => chainForeign s p d

/-- Whether the mod we were passing calls through to is still there is asked on
every run. -/
def planChain (s : Survey) (d : Draft) : Draft :=
  if d.next.chainTarget = [] ∧ s.state.chainTarget ≠ [] then
    if (parkedAs s s.state.chainTarget).isSome then
      { d with next := { d.next with chainTarget := s.state.chainTarget
                                     chainMod := s.state.chainMod } }.note
        ("Keeping the chain to ".toList ++ s.state.chainTarget ++ ['.'])
    else
      (d.force "advanced.real_dll".toList []).note
        ("The mod EDVR was passing calls through to (".toList ++ s.state.chainTarget ++
          ") is no longer there, so advanced.real_dll has been cleared.".toList)
  else d

/-- `nvngx_dlss.dll`: placed only where there is a card for it, and only the copy
we placed is ever replaced. -/
def planNgx (s : Survey) (o : Options) (p : PayloadInfo) (d : Draft) : Draft :=
  if p.haveNgx then
    let dst := joinPath s.game.dir kNgx
    let cur := s.ngx
    let present := cur.kind ≠ .absent ∧ cur.kind ≠ .unreadable
    let ours := present ∧ s.state.ngxInstalled ∧ s.state.ngxSha ≠ [] ∧ cur.sha256 = s.state.ngxSha
    let owned (sha : Text) (d : Draft) : Draft :=
      { d with next := { d.next with ngxInstalled := true, ngxSha := sha } }
    let d := { d with next := { d.next with ngxInstalled := false, ngxSha := [] } }
    if cur.kind = .unreadable then
      d.problem ("There is an nvngx_dlss.dll beside the game that cannot be read -- something has " ++
        "it open. NVIDIA's DLSS runtime was not touched.").toList
    else if present ∧ cur.sha256 = p.ngxSha ∧ ¬o.repair then
      owned p.ngxSha (d.note
        "nvngx_dlss.dll (NVIDIA's DLSS runtime) is already this build's -- left alone.".toList)
    else if present ∧ ¬ours ∧ cur.sha256 ≠ p.ngxSha then
      d.note ("A different nvngx_dlss.dll is already beside the game (yours, or one NVIDIA's " ++
        "updater replaced) -- left alone; temporal_aa = dlaa uses it.").toList
    else if ¬s.nvidiaAdapter then
      let d := d.note ("No NVIDIA graphics card was found, so NVIDIA's DLSS runtime (nvngx_dlss.dll, " ++
        "59 MB) was not placed. temporal_aa = dlaa and dlss need one, and run EDVR's own " ++
        "history without it.").toList
      if ours then owned s.state.ngxSha d else d
    else
      let d := if present then
          d.backup dst "the nvngx_dlss.dll EDVR placed, being replaced".toList
        else d
      let d := d.writePayload "ngx".toList dst
        (if present then "updates NVIDIA's DLSS runtime".toList
        else "places NVIDIA's DLSS runtime beside the game".toList)
      owned p.ngxSha (d.note
        (if present then "Updating nvngx_dlss.dll (NVIDIA's DLSS runtime).".toList
        else ("Placing nvngx_dlss.dll (NVIDIA's DLSS runtime, for temporal_aa = dlaa).").toList))
  else if s.state.ngxInstalled then
    d.note ("This installer carries no DLSS runtime; the nvngx_dlss.dll a previous one placed " ++
      "is left where it is.").toList
  else d

def originalName (s : Survey) : Text :=
  let name := safeSiblingName s.openvrOrigName kOpenvr
  if name = [] then kOpenvrOrig else name

/-- The game-facing `openvr_api.dll`; the original is retained for uninstall. -/
def planOpenvr (s : Survey) (o : Options) (p : PayloadInfo) (nativeDir : Text) (d : Draft) :
    Draft :=
  let runtime := joinPath nativeDir kOpenvr
  let original := joinPath nativeDir (originalName s)
  let current := s.openvrCurrent
  let saved := s.openvrOrig
  let savedRuntime := saved.kind = .openVrRuntime
  let d := { d with next := { d.next with
    openvrOrigName := originalName s
    openvrOrigSha := if savedRuntime then saved.sha256 else [] } }
  let d :=
    if current.kind = .edvr ∧ current.sha256 = p.openvrSha ∧ ¬o.repair then
      d.note "Native OpenXR runtime is already this build -- left alone.".toList
    else
      let d :=
        if current.kind = .absent then d
        else
          let d := d.backupOf runtime "the previous VR library, for recovery".toList current.sha256
          if current.kind = .openVrRuntime ∧
              (saved.kind = .absent ∨ savedRuntime ∧ saved.sha256 ≠ current.sha256) then
            let d :=
              if savedRuntime then
                (d.backupOf original "the superseded original runtime".toList saved.sha256).note
                  ("The game updated its VR library; keeping the newer original for " ++
                    "uninstall.").toList
              else d
            let d := d.rename runtime original "preserves the original runtime for uninstall".toList
              current.sha256
            { d with next := { d.next with openvrOrigSha := current.sha256 } }
          else d
      (d.writePayload "openvr".toList runtime
        "installs native OpenXR using the Windows-selected runtime".toList).note
        ("Installing native OpenXR. The original VR library is not used at runtime.").toList
  { d with next := { d.next with
    openvrInstalled := true
    openvrSha := p.openvrSha
    nativeGraphicsSha := p.d3d11Sha
    nativeRuntimeSha := p.openvrSha
    nativeOriginalName := d.next.openvrOrigName
    nativeOriginalSha := d.next.openvrOrigSha } }

def nativeAsset (o : Options) (nativeDir : Text) (current : DllInfo) (name item wanted : Text)
    (d : Draft) : Draft :=
  let destination := joinPath nativeDir name
  if current.kind ≠ .absent ∧ current.sha256 = wanted ∧ ¬o.repair then d
  else
    let d := if current.kind = .absent then d
      else d.backupOf destination "the previous native OpenXR file".toList current.sha256
    d.writePayload item destination "installs the bundled OpenXR dependency".toList

def nativeConfigText (gameDir nativeDir : Text) : Text :=
  "[openxr]\r\nversion=1\r\nloader=".toList ++ joinPath nativeDir kLoader ++
    "\r\ngraphics=".toList ++ joinPath gameDir kD3d11 ++
    "\r\nruntime=system\r\nseparate_device=1\r\n".toList

def planConfig (host : Host) (s : Survey) (o : Options) (nativeDir : Text) (d : Draft) : Draft :=
  let config := nativeConfigText s.game.dir nativeDir
  let sha := host.sha256 config
  let d := { d with next := { d.next with nativeConfigSha := sha } }
  if s.nativeConfig.sha256 ≠ sha ∨ o.repair then
    let destination := joinPath nativeDir kNativeConfig
    let d := if s.nativeConfig.kind = .absent then d
      else d.backupOf destination "the previous OpenXR startup configuration".toList
        s.nativeConfig.sha256
    { d.writeText config destination "selects the Windows OpenXR runtime".toList with
      changed := true }
  else d

def updatingNote (merge : MergeReport) : Text :=
  "Updating edvr.ini: ".toList ++ merge.kept.length.repr.toList ++
    " of your settings kept, ".toList ++ merge.adopted.length.repr.toList ++
    " new defaults adopted".toList ++
    (if merge.twoWay then
      (" (no record of which version you had, so anything that " ++
        "differs from the new defaults was treated as yours)").toList
    else []) ++ ['.']

/-- The settings file as it is going to be, and what is said about it. -/
def mergeSettings (s : Survey) (o : Options) (p : PayloadInfo) (d : Draft) : Text × Draft :=
  let iniPath := joinPath s.game.dir kIni
  if ¬s.iniPresent then
    let (merged, merge) := mergeIni p.iniText [] none d.forced
    (merged, { d with merge := merge }.note
      "Writing edvr.ini (every setting at its default).".toList)
  else if ¬o.keepSettings then
    let (merged, merge) := mergeIni p.iniText [] none d.forced
    (merged, ({ d with merge := merge }.backup iniPath
        "your edvr.ini, before it is replaced".toList).note
      ("Replacing edvr.ini with the shipped defaults. Your old file is in the backup " ++
        "folder.").toList)
  else
    let base := if s.baseIniText = [] then none else some s.baseIniText
    let (merged, merge) := mergeIni p.iniText s.iniText base d.forced
    let d := { d with merge := merge }
    if merged = s.iniText then (merged, d)
    else
      let d := (d.backup iniPath "your edvr.ini, before it is updated".toList).note
        (updatingNote merge)
      (merged, if merge.retired = [] then d
        else d.note ("Some settings you had set no longer exist in this version; they were " ++
          "carried to the end of their section with a note rather than dropped.").toList)

/-- `edvr.ini`. Last, because the chain decision forces a value into it. -/
def planIni (host : Host) (s : Survey) (o : Options) (p : PayloadInfo) (d : Draft) : Draft :=
  if p.iniText = [] then d.problem "This installer carries no edvr.ini.".toList
  else
    let (merged, d) := mergeSettings s o p d
    let d :=
      if merged = s.iniText then
        d.note "edvr.ini already says what it should -- left alone.".toList
      else { d.writeText merged (joinPath s.game.dir kIni) "writes edvr.ini".toList with
        changed := true }
    { d with next := { d.next with iniSha := host.sha256 merged } }

def installBlock (s : Survey) (p : PayloadInfo) : Option Text :=
  if s.game.dir = [] then some "No game folder chosen.".toList
  else if s.gameRunningHere then
    some (("Elite Dangerous is running. Close it first -- Windows will not let anything replace a " ++
      "file the game has open, and a half-replaced install is worse than none.").toList)
  else if ¬p.haveD3d11 ∨ ¬p.haveOpenvr ∨ ¬p.haveOpenxrLoader ∨ ¬p.haveOpenxrLicense ∨
      ¬p.nativePairValid ∨ p.iniText = [] then
    some ("The native OpenXR package is incomplete or invalid. Nothing will be " ++
      "installed.").toList
  else if ¬s.eliteProfileValid then
    some ("This Elite executable is not supported by this OpenXR build. Install an EDVR build " ++
      "supporting this game revision.").toList
  else if [s.d3d11, s.openvrCurrent, s.openxrLoader, s.nativeConfig, s.openxrLicense].any
      (·.kind = .unreadable) then
    some ("A native OpenXR destination cannot be read. Nothing will be installed.").toList
  else none

def nativeDirOf (s : Survey) : Text :=
  if s.game.openvrDir = [] then joinPath s.game.dir kOpenvrFolder else s.game.openvrDir

/-- The record a run starts from. The chain is decided by the run, not inherited. -/
def firstState (s : Survey) (o : Options) (p : PayloadInfo) : InstallState :=
  { s.state with
    present := true
    edvrVersion := p.version
    installedUtc := o.nowUtc
    openvrDir := relativeOpenvr s.game.dir (nativeDirOf s)
    nativeInstalled := true
    chainTarget := []
    chainMod := [] }

def installDraft (host : Host) (s : Survey) (o : Options) (p : PayloadInfo) : Draft :=
  let nativeDir := nativeDirOf s
  let d : Draft :=
    { backupDir := backupDirOf s o
      next := firstState s o p
      notes := if s.gameRunningElsewhere then [kRunningElsewhere] else [] }
  let d := planD3d11 s o p d
  let d := planChain s d
  let d := planNgx s o p d
  let d := planOpenvr s o p nativeDir d
  let d := nativeAsset o nativeDir s.openxrLoader kLoader "openxr_loader".toList p.openxrLoaderSha d
  let d := nativeAsset o nativeDir s.openxrLicense kLicense "openxr_license".toList
    p.openxrLicenseSha d
  let d := { d with next := { d.next with
    openxrLoaderSha := p.openxrLoaderSha
    openxrLicenseSha := p.openxrLicenseSha } }
  let d := planConfig host s o nativeDir d
  planIni host s o p d

def installSteps (s : Survey) (p : PayloadInfo) (d : Draft) : List Step :=
  (if d.wantBackupDir then
    [{ action := .makeDir, target := d.backupDir,
       why := "keeps a copy of everything replaced".toList }] else []) ++
  [{ action := .makeDir, target := nativeDirOf s,
     why := "holds the native OpenXR runtime and loader".toList }] ++
  d.body ++
  [{ action := .makeDir, target := stateDirPath s.game.dir,
     why := "holds the install record".toList },
   { action := .writeText, text := p.iniText, target := baseIniPath s.game.dir,
     why := ("keeps this version's default edvr.ini, so the next update can tell your " ++
       "changes from a changed default").toList },
   { action := .writeText, text := serializeState d.next, target := statePath s.game.dir,
     why := "records what was installed".toList }]

def planInstall (host : Host) (s : Survey) (o : Options) (p : PayloadInfo) : Plan :=
  match installBlock s p with
  | some problem => { blocked := true, problems := [problem], backupDir := backupDirOf s o }
  | none =>
    let d := installDraft host s o p
    let nothingToDo := !d.changed && !o.repair
    { steps := if nothingToDo then [] else installSteps s p d
      notes := if nothingToDo then
          d.notes ++ ["Everything is already in place. Nothing to do.".toList]
        else d.notes
      problems := d.problems
      nothingToDo := nothingToDo
      merge := d.merge
      nextState := d.next
      backupDir := d.backupDir }

/-! ### Uninstalling -/

/-- The name of the file we moved aside: the record's, else the settings'. -/
def recordedChain (s : Survey) : Text :=
  let chain := safeSiblingName s.state.chainTarget kD3d11
  if chain = [] then
    safeSiblingName (iniValue s.iniText "advanced.real_dll".toList []) kD3d11
  else chain

def chainFile (s : Survey) : Option DllInfo :=
  if recordedChain s = [] then none else parkedAs s (recordedChain s)

/-- Ours is removed, and whatever we moved aside goes back under its name. -/
def removeD3d11 (s : Survey) (d : Draft) : Draft :=
  let path := joinPath s.game.dir kD3d11
  match s.d3d11.kind with
  | .edvr =>
    let d := (d.backup path "EDVR's d3d11.dll".toList).remove path
      "removes EDVR's d3d11.dll".toList s.d3d11.sha256
    match chainFile s with
    | some target =>
      (d.rename target.path path
        ("puts ".toList ++ (if s.state.chainMod = [] then "the other mod".toList
          else s.state.chainMod) ++ " back under its own name".toList) target.sha256).note
        ("Removing EDVR's d3d11.dll and restoring ".toList ++ recordedChain s ++
          " as d3d11.dll.".toList)
    | none =>
      let d := d.note "Removing EDVR's d3d11.dll.".toList
      if recordedChain s = [] then d
      else d.problem ("edvr.ini pointed at ".toList ++ recordedChain s ++
        ", but that file is not there any more, so there is nothing to put back.".toList)
  | .absent => d.note "No d3d11.dll to remove.".toList
  | _ => d.note ("The d3d11.dll here is not EDVR's (".toList ++ describeDll s.d3d11 ++
      ") -- left alone.".toList)

def removeOpenvr (s : Survey) (d : Draft) : Draft :=
  if ¬s.haveOpenvrDir then d
  else
    let dst := joinPath s.game.openvrDir kOpenvr
    let origPath := joinPath s.game.openvrDir (originalName s)
    if s.openvrCurrent.kind = .edvr then
      if s.openvrOrig.kind = .openVrRuntime then
        (((d.backup dst "EDVR's openvr_api.dll".toList).remove dst
            "removes EDVR's openvr_api.dll".toList s.openvrCurrent.sha256).rename origPath dst
            "puts the game's own openvr_api.dll back".toList s.openvrOrig.sha256).note
          "Removing EDVR's openvr_api.dll and renaming the game's original back.".toList
      else
        match s.openvrOrigInBackups with
        | copy :: _ =>
          ((d.backup dst "EDVR's openvr_api.dll".toList).restore copy dst
            "puts the game's own openvr_api.dll back from an EDVR backup".toList).note
            ("The renamed original is missing, so the game's own openvr_api.dll is being " ++
              "restored from the backup this installer made before it first renamed it.").toList
        | [] =>
          d.problem ("EDVR's openvr_api.dll has been left in place: the game's original is not " ++
            "there to put back, and no backup of it was found, so removing ours would " ++
            "leave that folder with no openvr_api.dll at all. Verify or repair the game " ++
            "files in your launcher -- that restores the original -- and then uninstall " ++
            "again.").toList
    else if s.openvrCurrent.kind = .openVrRuntime ∧ s.openvrOrig.kind = .openVrRuntime then
      d.note ("The game's own openvr_api.dll is already in place; the spare copy at " ++
        "openvr_api_orig.dll was left where it is.").toList
    else d.note "No EDVR openvr_api.dll to remove.".toList

def retire (info : DllInfo) (owned : Text) (d : Draft) : Draft :=
  if info.kind = .absent then d
  else if owned = [] ∨ info.sha256 ≠ owned then
    d.note ("Keeping a changed OpenXR file: ".toList ++ leafOf info.path)
  else
    (d.backup info.path "the native OpenXR file being removed".toList).remove info.path
      "removes EDVR's OpenXR dependency".toList info.sha256

def removeNative (s : Survey) (d : Draft) : Draft :=
  if s.state.nativeInstalled then
    retire s.nativeConfig s.state.nativeConfigSha <|
      retire s.openxrLicense s.state.openxrLicenseSha <|
      retire s.openxrLoader s.state.openxrLoaderSha d
  else d

def removeNgx (s : Survey) (d : Draft) : Draft :=
  if s.state.ngxInstalled ∧ s.state.ngxSha ≠ [] ∧ s.ngx.kind ≠ .absent ∧
      s.ngx.kind ≠ .unreadable ∧ s.ngx.sha256 = s.state.ngxSha then
    (d.remove (joinPath s.game.dir kNgx) "removes NVIDIA's DLSS runtime, which EDVR placed".toList
      s.ngx.sha256).note
      "Removing nvngx_dlss.dll (NVIDIA's DLSS runtime, which EDVR placed).".toList
  else if s.ngx.kind ≠ .absent then
    d.note ("The nvngx_dlss.dll beside the game is not the copy EDVR placed -- left alone.").toList
  else d

def removeIni (s : Survey) (o : Options) (d : Draft) : Draft :=
  let iniPath := joinPath s.game.dir kIni
  if ¬s.iniPresent then d
  else if o.removeSettings then
    ((d.backup iniPath "your edvr.ini".toList).remove iniPath "removes edvr.ini".toList []).note
      "Removing edvr.ini (a copy is kept in the backup folder).".toList
  else d.note "Leaving edvr.ini in place, so a reinstall finds your settings again.".toList

def removeRecord (s : Survey) (d : Draft) : Draft :=
  let d := if s.haveRecord then
      d.remove (statePath s.game.dir) "removes the install record".toList [] else d
  if s.haveBaseIni then
    d.remove (baseIniPath s.game.dir) "removes the kept default edvr.ini".toList [] else d

def uninstallDraft (s : Survey) (o : Options) : Draft :=
  let d : Draft :=
    { backupDir := backupDirOf s o
      notes := if s.gameRunningElsewhere then [kRunningElsewhere] else [] }
  removeRecord s <| removeIni s o <| removeNgx s <| removeNative s <| removeOpenvr s <|
    removeD3d11 s d

def originalLost (s : Survey) : Prop :=
  (s.state.nativeInstalled ∨ s.openvrCurrent.nativeRuntimeExports) ∧ s.openvrCurrent.kind = .edvr ∧
    s.openvrOrig.kind ≠ .openVrRuntime ∧ s.openvrOrigInBackups = []

instance (s : Survey) : Decidable (originalLost s) :=
  inferInstanceAs (Decidable (_ ∧ _))

def uninstallSteps (d : Draft) : List Step :=
  (if d.wantBackupDir then
    [{ action := .makeDir, target := d.backupDir,
       why := "keeps a copy of everything removed".toList }] else []) ++ d.body

def planUninstall (s : Survey) (o : Options) : Plan :=
  if originalLost s then
    { blocked := true
      problems := [("The original VR library is missing. Repair the game files before " ++
        "uninstalling; the native pair was left intact.").toList] }
  else if s.gameRunningHere then
    { blocked := true, problems := ["Elite Dangerous is running. Close it first.".toList]
      backupDir := backupDirOf s o }
  else
    let d := uninstallDraft s o
    { steps := if d.changed then uninstallSteps d else []
      notes := d.notes ++
        [if d.changed then
          ("Logs in edvr_logs\\ and the backups in edvr_backup\\ are left where they are; delete " ++
            "them by hand if you want them gone.").toList
        else "EDVR does not appear to be installed here.".toList]
      problems := d.problems
      nothingToDo := !d.changed
      backupDir := d.backupDir }

end EdvrPatch.Installer
