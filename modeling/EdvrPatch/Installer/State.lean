import EdvrPatch.Ini.Merge
import EdvrPatch.Installer.FileSystem

/-! What the installer did last time, written next to the game (`state.cpp`). -/
namespace EdvrPatch.Installer

open Ini

def stateDirPath (gameDir : Text) : Text :=
  joinPath gameDir "edvr_install".toList

def statePath (gameDir : Text) : Text :=
  joinPath (stateDirPath gameDir) "state.ini".toList

def baseIniPath (gameDir : Text) : Text :=
  joinPath (stateDirPath gameDir) "edvr.ini.base".toList

def backupRootPath (gameDir : Text) : Text :=
  joinPath gameDir "edvr_backup".toList

structure InstallState where
  present : Bool := false
  edvrVersion : Text := []
  installedUtc : Text := []
  openvrDir : Text := []
  d3d11Installed : Bool := false
  d3d11Sha : Text := []
  chainTarget : Text := []
  chainMod : Text := []
  openvrInstalled : Bool := false
  openvrSha : Text := []
  openvrOrigName : Text := []
  openvrOrigSha : Text := []
  ngxInstalled : Bool := false
  ngxSha : Text := []
  iniSha : Text := []
  hasBaseIni : Bool := false
  nativeInstalled : Bool := false
  nativeGraphicsSha : Text := []
  nativeRuntimeSha : Text := []
  openxrLoaderSha : Text := []
  openxrLicenseSha : Text := []
  nativeConfigSha : Text := []
  nativeOriginalName : Text := []
  nativeOriginalSha : Text := []
  deriving DecidableEq, Repr

def findKey (doc : IniDoc) (sect key : Text) : Option IniLine :=
  doc.foldl (fun found line =>
    if line.kind = .key ∧ sameKey line.sect sect ∧ sameKey line.key key then some line
    else found) none

def recordValue (doc : IniDoc) (sect key : String) : Text :=
  ((findKey doc sect.toList key.toList).map (·.value)).getD []

def parseState (text : Text) : InstallState :=
  if text = [] then {}
  else
    let get := recordValue (iniParse text)
    let edvrVersion := get "edvr" "version"
    let d3d11Sha := get "d3d11" "sha256"
    let openvrSha := get "openvr" "sha256"
    let ngxSha := get "ngx" "sha256"
    let nativeGraphicsSha := get "native" "graphics_sha256"
    let nativeRuntimeSha := get "native" "runtime_sha256"
    let nativeInstalled := nativeRuntimeSha != [] || nativeGraphicsSha != []
    { edvrVersion := edvrVersion
      installedUtc := get "edvr" "installed_utc"
      openvrDir := get "edvr" "openvr_dir"
      d3d11Sha := d3d11Sha
      d3d11Installed := d3d11Sha != []
      chainTarget := get "d3d11" "chain_target"
      chainMod := get "d3d11" "chain_mod"
      openvrSha := openvrSha
      openvrInstalled := openvrSha != []
      openvrOrigName := get "openvr" "orig_name"
      openvrOrigSha := get "openvr" "orig_sha256"
      ngxSha := ngxSha
      ngxInstalled := ngxSha != []
      iniSha := get "ini" "sha256"
      nativeGraphicsSha := nativeGraphicsSha
      nativeRuntimeSha := nativeRuntimeSha
      openxrLoaderSha := get "native" "loader_sha256"
      openxrLicenseSha := get "native" "license_sha256"
      nativeConfigSha := get "native" "config_sha256"
      nativeOriginalName := get "native" "original_name"
      nativeOriginalSha := get "native" "original_sha256"
      nativeInstalled := nativeInstalled
      present := edvrVersion != [] || d3d11Sha != [] || openvrSha != [] || nativeInstalled }

def maxTextSize : Nat := 4 * 2 ^ 20

def readTextFile (access : FileAccess) (fs : FileSystem) (path : Text) : Text :=
  match fs.read path with
  | none => []
  | some content => if ¬access.readable path ∨ maxTextSize < content.length then [] else content

def readState (access : FileAccess) (fs : FileSystem) (gameDir : Text) : InstallState :=
  { parseState (readTextFile access fs (statePath gameDir)) with
    hasBaseIni := fs.fileExists (baseIniPath gameDir) }

def crlf : Text := ['\r', '\n']

def recordLine (key : String) (value : Text) : Text :=
  key.toList ++ " = ".toList ++ value ++ crlf

def recordHeader (sect : String) : Text :=
  crlf ++ '[' :: sect.toList ++ ']' :: crlf

def serializeState (state : InstallState) : Text :=
  "# EDVR install record. Written by the installer; read by it on the next run.".toList ++ crlf ++
  "# Deleting this file loses nothing the game needs -- it only makes the".toList ++ crlf ++
  "# installer fall back to guessing what a previous run did.".toList ++ crlf ++
  recordHeader "edvr" ++
  recordLine "version" state.edvrVersion ++
  recordLine "installed_utc" state.installedUtc ++
  recordLine "openvr_dir" state.openvrDir ++
  recordHeader "d3d11" ++
  recordLine "sha256" (if state.d3d11Installed then state.d3d11Sha else []) ++
  recordLine "chain_target" state.chainTarget ++
  recordLine "chain_mod" state.chainMod ++
  recordHeader "openvr" ++
  recordLine "sha256" (if state.openvrInstalled then state.openvrSha else []) ++
  recordLine "orig_name" state.openvrOrigName ++
  recordLine "orig_sha256" state.openvrOrigSha ++
  recordHeader "ngx" ++
  recordLine "sha256" (if state.ngxInstalled then state.ngxSha else []) ++
  recordHeader "ini" ++
  recordLine "sha256" state.iniSha ++
  recordHeader "native" ++
  recordLine "graphics_sha256" state.nativeGraphicsSha ++
  recordLine "runtime_sha256" state.nativeRuntimeSha ++
  recordLine "loader_sha256" state.openxrLoaderSha ++
  recordLine "license_sha256" state.openxrLicenseSha ++
  recordLine "config_sha256" state.nativeConfigSha ++
  recordLine "original_name" state.nativeOriginalName ++
  recordLine "original_sha256" state.nativeOriginalSha

end EdvrPatch.Installer
