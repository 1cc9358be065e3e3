import EdvrPatch.Installer.FileSystem
import EdvrPatch.Lib.UndoLog

/-! Carrying out a plan, and undoing it if a step fails (`apply.cpp`). -/
namespace EdvrPatch.Installer

open Lib

inductive Action where
  | makeDir
  | backup
  | rename
  | writePayload
  | writeText
  | delete
  deriving DecidableEq, Repr

structure Step where
  action : Action := .makeDir
  source : Text := []
  target : Text := []
  item : Text := []
  text : Text := []
  why : Text := []
  expectSha : Text := []
  required : Bool := false
  deriving DecidableEq, Repr

structure Work where
  steps : List Step := []
  blocked : Bool := false
  backupDir : Text := []
  deriving DecidableEq, Repr

structure ApplyResult where
  ok : Bool := false
  rolledBack : Bool := false
  overwrote : Bool := false
  done : List Text := []
  error : Text := []
  deriving DecidableEq, Repr

inductive Undo where
  | removeDir (path : Text)
  | deleteFile (path : Text)
  | moveBack (movedTo cameFrom sha : Text)
  | restoreFile (snapshot target sha : Text)
  deriving DecidableEq, Repr

/-- The state of a run: the disk, the undo log with its newest entry first, and
where and with which code a step failed. -/
structure Progress where
  disk : Disk
  undo : List Undo := []
  overwrote : Bool := false
  done : List Text := []
  failure : Option (Text × Nat) := none
  deriving DecidableEq, Repr

namespace Progress

def fail (p : Progress) (what : Text) (code : Nat) : Progress :=
  { p with failure := some (what, code) }

def push (p : Progress) (entry : Undo) : Progress :=
  { p with undo := entry :: p.undo }

def report (p : Progress) (line : Text) : Progress :=
  { p with done := p.done ++ [line] }

end Progress

abbrev PayloadProvider := Text → Option Text

section

variable (host : Host) (faults : Faults)

def makeLastDir (path : Text) :
    Option Nat × Disk × List Undo → Option Nat × Disk × List Undo
  | (some code, d, undo) => (some code, d, undo)
  | (none, d, undo) =>
    match d.createDirectory faults path with
    | (some code, d) => (some code, d, undo)
    | (none, d) => (none, d, .removeDir path :: undo)

/-- `ensureDirTree`: the directory and all above it, each one made with its undo
entry. `fuel` is the length of the path. -/
def ensureDirTree : Nat → Text → Disk → List Undo → Option Nat × Disk × List Undo
  | 0, _, d, undo => (none, d, undo)
  | fuel + 1, path, d, undo =>
    if path = [] ∨ d.fs.dirExists path then (none, d, undo)
    else
      match parentOf path with
      | none => makeLastDir faults path (none, d, undo)
      | some parent =>
        if 2 < parent.length then makeLastDir faults path (ensureDirTree fuel parent d undo)
        else makeLastDir faults path (none, d, undo)

def tempSuffix : Text := ".edvrnew".toList

/-- `writeWholeFile`: written beside the target and moved into place. -/
def writeWholeFile (d : Disk) (path data : Text) : Option Nat × Disk :=
  let temp := path ++ tempSuffix
  match d.createFile faults temp with
  | (some code, d) => (some code, d)
  | (none, d) =>
    match d.writeFile faults temp data with
    | (some code, d) => (some code, (d.deleteFile faults temp).2)
    | (none, d) =>
      match d.moveFile faults temp path with
      | (some code, d) => (some code, (d.deleteFile faults temp).2)
      | (none, d) => (none, d)

def snapshotFile (d : Disk) (source backupDir : Text) : Except Nat Text × Disk :=
  let dir := if backupDir = [] then (parentOf source).getD ['.'] else backupDir
  match ensureDirTree faults dir.length dir d [] with
  | (some code, d, _) => (.error code, d)
  | (none, d, _) =>
    match d.tempFile host faults dir with
    | (.error code, d) => (.error code, d)
    | (.ok snapshot, d) =>
      match d.copyFile faults source snapshot with
      | (some code, d) => (.error code, (d.deleteFile faults snapshot).2)
      | (none, d) =>
        match d.sha256File host faults source with
        | (expected, d) =>
          if expected = [] then (.error ERROR_CRC, (d.deleteFile faults snapshot).2)
          else
            match d.sha256File host faults snapshot with
            | (found, d) =>
              if found ≠ expected then (.error ERROR_CRC, (d.deleteFile faults snapshot).2)
              else (.ok snapshot, d)

/-- `protectTarget`: a file that a step is about to replace is snapshot first,
and the snapshot goes on the undo log. -/
def protectTarget (backupDir : Text) (p : Progress) (target : Text) : Option Nat × Progress :=
  if ¬p.disk.fs.fileExists target then (none, p)
  else
    match snapshotFile host faults p.disk target backupDir with
    | (.error code, d) => (some code, { p with disk := d })
    | (.ok snapshot, d) =>
      match d.sha256File host faults snapshot with
      | (sha, d) => (none, { p with disk := d }.push (.restoreFile snapshot target sha))

/-- Both kinds of write: protect what is there, write, and remember how to undo
a file that was not. -/
def writeStep (backupDir : Text) (p : Progress) (target data : Text) : Progress :=
  let existed := p.disk.fs.fileExists target
  match protectTarget host faults backupDir p target with
  | (some code, p) => p.fail target code
  | (none, p) =>
    match writeWholeFile faults p.disk target data with
    | (some code, d) => { p with disk := d }.fail target code
    | (none, d) =>
      let p := { p with disk := d }
      let p := if existed then { p with overwrote := true } else p.push (.deleteFile target)
      p.report ("wrote ".toList ++ leafOf target)

/-- The directory a backup goes into. That it could not be made shows when the
copy fails. -/
def makeParentDirs (p : Progress) (target : Text) : Progress :=
  match parentOf target with
  | none => p
  | some parent =>
    match ensureDirTree faults parent.length parent p.disk p.undo with
    | (_, d, undo) => { p with disk := d, undo := undo }

def copyProtected (backupDir : Text) (p : Progress) (source target : Text) : Progress :=
  match protectTarget host faults backupDir p target with
  | (some code, p) => p.fail target code
  | (none, p) =>
    match p.disk.copyFile faults source target with
    | (some code, d) => { p with disk := d }.fail target code
    | (none, d) => { p with disk := d }.report
        ("copied ".toList ++ leafOf source ++ " -> ".toList ++ target)

/-- `Action::Backup`: a copy that stays even when the run is rolled back. -/
def backupStep (backupDir : Text) (p : Progress) (step : Step) : Progress :=
  let p := makeParentDirs faults p step.target
  if ¬p.disk.fs.fileExists step.source then
    if step.required then p.fail step.source ERROR_FILE_NOT_FOUND else p
  else copyProtected host faults backupDir p step.source step.target

def renameStep (backupDir : Text) (p : Progress) (step : Step) : Progress :=
  if ¬p.disk.fs.fileExists step.source then
    if step.required then p.fail step.source ERROR_FILE_NOT_FOUND else p
  else
    match protectTarget host faults backupDir p step.target with
    | (some code, p) => p.fail step.target code
    | (none, p) =>
      match p.disk.sha256File host faults step.source with
      | (before, d) =>
        let p := { p with disk := d }
        if before = [] then p.fail step.source ERROR_CRC
        else
          match p.disk.moveFile faults step.source step.target with
          | (some code, d) => { p with disk := d }.fail step.source code
          | (none, d) =>
            ({ p with disk := d }.push (.moveBack step.target step.source before)).report
              ("renamed ".toList ++ leafOf step.source ++ " -> ".toList ++ leafOf step.target)

def deleteStep (backupDir : Text) (p : Progress) (step : Step) : Progress :=
  if ¬p.disk.fs.fileExists step.source then p
  else
    match protectTarget host faults backupDir p step.source with
    | (some code, p) => p.fail step.source code
    | (none, p) =>
      match p.disk.deleteFile faults step.source with
      | (some code, d) => { p with disk := d }.fail step.source code
      | (none, d) => { p with disk := d }.report ("removed ".toList ++ leafOf step.source)

def makeDirStep (p : Progress) (step : Step) : Progress :=
  match ensureDirTree faults step.target.length step.target p.disk p.undo with
  | (some code, d, undo) => { p with disk := d, undo := undo }.fail step.target code
  | (none, d, undo) => { p with disk := d, undo := undo }

def applyStep (payload : PayloadProvider) (backupDir : Text) (p : Progress) (step : Step) :
    Progress :=
  match step.action with
  | .makeDir => makeDirStep faults p step
  | .backup => backupStep host faults backupDir p step
  | .rename => renameStep host faults backupDir p step
  | .writePayload =>
    match payload step.item with
    | none => p.fail step.target ERROR_RESOURCE_DATA_NOT_FOUND
    | some data =>
      if data = [] then p.fail step.target ERROR_RESOURCE_DATA_NOT_FOUND
      else writeStep host faults backupDir p step.target data
  | .writeText => writeStep host faults backupDir p step.target step.text
  | .delete => deleteStep host faults backupDir p step

def applySteps (payload : PayloadProvider) (backupDir : Text) : Progress → List Step → Progress
  | p, [] => p
  | p, step :: rest =>
    let p := applyStep host faults payload backupDir p step
    if p.failure.isSome then p else applySteps payload backupDir p rest

def staleStep (d : Disk) (step : Step) : Option Text × Disk :=
  if step.source = [] then (none, d)
  else if ¬d.fs.fileExists step.source then
    if step.required ∨ step.expectSha ≠ [] then
      (some ("The folder changed while this was waiting to be confirmed: ".toList ++
        leafOf step.source ++
        " is not there any more. Nothing was done -- look at it again.".toList), d)
    else (none, d)
  else if step.expectSha = [] then (none, d)
  else
    match d.sha256File host faults step.source with
    | (found, d) =>
      if found ≠ step.expectSha then
        (some ("The folder changed while this was waiting to be confirmed: ".toList ++
          leafOf step.source ++
          " is not the file this plan was made for. Nothing was done -- close ".toList ++
          "any other installer window and look at it again.".toList), d)
      else (none, d)

def staleError : Disk → List Step → Option Text × Disk
  | d, [] => (none, d)
  | d, step :: rest =>
    match staleStep host faults d step with
    | (some error, d) => (some error, d)
    | (none, d) => staleError d rest

/-- One undo entry of a rollback whose own file operations work. `none` is an
entry that finds its source gone or the restored bytes wrong. -/
def undoOne : Undo → FileSystem → Option FileSystem
  | .removeDir path, fs => some (fs.removeDir path)
  | .deleteFile path, fs => some (fs.remove path)
  | .moveBack movedTo cameFrom sha, fs =>
    match fs.read movedTo with
    | none => none
    | some content =>
      let fs := (fs.remove movedTo).write cameFrom content
      if (fs.read cameFrom).map host.sha256 ≠ some sha then none else some fs
  | .restoreFile snapshot target sha, fs =>
    match fs.read snapshot with
    | none => none
    | some content =>
      let fs := fs.write target content
      if (fs.read target).map host.sha256 ≠ some sha then none else some (fs.remove snapshot)

/-- The walk back over the undo log. An entry that does not go through is left
alone, and so is the target of a move that could not be taken back. -/
def walkBack : List Undo → FileSystem → List Text → Bool → FileSystem × Bool
  | [], fs, _, ok => (fs, ok)
  | .moveBack movedTo cameFrom sha :: older, fs, retained, ok =>
    match undoOne host (.moveBack movedTo cameFrom sha) fs with
    | some fs => walkBack older fs retained ok
    | none =>
      let left := match fs.read movedTo with
        | some content => (fs.remove movedTo).write cameFrom content
        | none => fs
      walkBack older left (movedTo :: retained) false
  | .restoreFile snapshot target sha :: older, fs, retained, ok =>
    if retained.contains target then walkBack older fs retained false
    else
      match undoOne host (.restoreFile snapshot target sha) fs with
      | some fs => walkBack older fs retained ok
      | none =>
        let left := match fs.read snapshot with
          | some content => fs.write target content
          | none => fs
        walkBack older left retained false
  | entry :: older, fs, retained, ok =>
    walkBack older ((undoOne host entry fs).getD fs) retained ok

/-- What a finished run throws away: the snapshots, whether or not that works. -/
def dropSnapshots : List Undo → Disk → Disk
  | [], d => d
  | .restoreFile snapshot _ _ :: later, d => dropSnapshots later (d.deleteFile faults snapshot).2
  | _ :: later, d => dropSnapshots later d

def applyPlan (payload : PayloadProvider) (work : Work) (fs : FileSystem) :
    ApplyResult × FileSystem :=
  if work.blocked then
    ({ error := "The plan is blocked; nothing was done.".toList }, fs)
  else
    match staleError host faults { fs := fs } work.steps with
    | (some error, d) => ({ error := error }, d.fs)
    | (none, d) =>
      let p := applySteps host faults payload work.backupDir { disk := d } work.steps
      match p.failure with
      | none => ({ ok := true, done := p.done }, (dropSnapshots faults p.undo.reverse p.disk).fs)
      | some (failedAt, code) =>
        let (fs, rollbackOk) := walkBack host p.undo p.disk.fs [] true
        ({ rolledBack := rollbackOk
           overwrote := p.overwrote
           done := p.done
           error := "Could not finish: ".toList ++ host.errorText code ++ " (at ".toList ++
             failedAt ++ [')'] ++
             if rollbackOk then []
             else " Recovery is incomplete; retained snapshots and backups must be kept.".toList },
          fs)

end

end EdvrPatch.Installer
