import EdvrPatch.Common.Text
import EdvrPatch.Lib.Store

/-! The file system under the installer, and the Win32 calls it makes. Paths
are case insensitive, so files and directories are kept under their lower-case
path. Every call that can fail asks a schedule of faults first. -/
namespace EdvrPatch.Installer

open Lib

def isSlash (c : Char) : Bool :=
  c == '\\' || c == '/'

def joinPath (dir leaf : Text) : Text :=
  if dir = [] then leaf
  else if leaf = [] then dir
  else if (dir.getLast?.map isSlash).getD false then dir ++ leaf
  else dir ++ '\\' :: leaf

def leafOf (path : Text) : Text :=
  path.rtakeWhile fun c => !isSlash c

def parentOf (path : Text) : Option Text :=
  if path.any isSlash then some (path.rdropWhile fun c => !isSlash c).dropLast else none

structure FileSystem where
  files : Store Text Text := []
  dirs : List Text := []
  deriving DecidableEq, Repr

namespace FileSystem

def read (fs : FileSystem) (path : Text) : Option Text :=
  fs.files.get (lower path)

def write (fs : FileSystem) (path content : Text) : FileSystem :=
  { fs with files := fs.files.set (lower path) content }

def remove (fs : FileSystem) (path : Text) : FileSystem :=
  { fs with files := fs.files.erase (lower path) }

def leave (fs : FileSystem) (path : Text) : Option Text → FileSystem
  | some content => fs.write path content
  | none => fs.remove path

def fileExists (fs : FileSystem) (path : Text) : Bool :=
  (fs.read path).isSome

def dirExists (fs : FileSystem) (path : Text) : Bool :=
  fs.dirs.contains (lower path)

def makeDir (fs : FileSystem) (path : Text) : FileSystem :=
  { fs with dirs := lower path :: fs.dirs }

def removeDir (fs : FileSystem) (path : Text) : FileSystem :=
  let below := (lower path ++ ['\\']).isPrefixOf
  if fs.files.any (fun entry => below entry.1) ∨ fs.dirs.any below then fs
  else { fs with dirs := fs.dirs.filter (· ≠ lower path) }

def SameFile (p q : Text) : Prop :=
  lower p = lower q

instance (p q : Text) : Decidable (SameFile p q) :=
  inferInstanceAs (Decidable (_ = _))

theorem SameFile.refl (p : Text) : SameFile p p :=
  Eq.refl (lower p)

theorem read_write (fs : FileSystem) (p q content : Text) :
    (fs.write p content).read q = if SameFile q p then some content else fs.read q :=
  Store.get_set ..

@[simp] theorem read_write_self (fs : FileSystem) (p content : Text) :
    (fs.write p content).read p = some content :=
  Store.get_set_self ..

theorem read_remove (fs : FileSystem) (p q : Text) :
    (fs.remove p).read q = if SameFile q p then none else fs.read q :=
  Store.get_erase ..

theorem read_leave (fs : FileSystem) (p q : Text) (torn : Option Text) :
    (fs.leave p torn).read q = if SameFile q p then torn else fs.read q := by
  cases torn with
  | some content => exact read_write ..
  | none => exact read_remove ..

@[simp] theorem read_removeDir (fs : FileSystem) (p q : Text) :
    (fs.removeDir p).read q = fs.read q := by
  unfold removeDir
  dsimp only
  split <;> rfl

theorem fileExists_iff {fs : FileSystem} {p : Text} :
    fs.fileExists p = true ↔ ∃ content, fs.read p = some content :=
  Option.isSome_iff_exists

theorem read_eq_none {fs : FileSystem} {p : Text} (absent : fs.fileExists p = false) :
    fs.read p = none := by
  simpa [fileExists] using absent

end FileSystem

/-- What comes of reading a file that is there: another program may hold it, it may not be
mapped, and a read may fail on the way. -/
structure FileAccess where
  opens : Text → Bool
  maps : Text → Bool
  reads : Text → Bool

def FileAccess.readable (access : FileAccess) (path : Text) : Bool :=
  access.opens path && access.reads path

/-- A call that fails, with the code Windows reports and what a copy or a write
that was under way leaves at its destination. -/
structure Fault where
  code : Nat
  torn : Option Text
  deriving DecidableEq, Repr

abbrev Faults := Nat → Option Fault

def Faults.Single (faults : Faults) : Prop :=
  ∀ i j, (faults i).isSome → (faults j).isSome → i = j

def ERROR_FILE_NOT_FOUND : Nat := 2
def ERROR_CRC : Nat := 23
def ERROR_SHARING_VIOLATION : Nat := 32
def ERROR_ALREADY_EXISTS : Nat := 183
def ERROR_RESOURCE_DATA_NOT_FOUND : Nat := 1812

/-- What Windows supplies: the hash, the unique temporary names, the wording of
an error code. A temporary name is free when it is handed out and ends in
`.tmp`. -/
structure Host where
  sha256 : Text → Text
  sha256_ne_nil : ∀ content, sha256 content ≠ []
  tempName : FileSystem → Text → Text
  tempName_free : ∀ (fs : FileSystem) (dir : Text), fs.read (tempName fs dir) = none
  tempName_tmp : ∀ (fs : FileSystem) (dir : Text), ".tmp".toList <:+ lower (tempName fs dir)
  errorText : Nat → Text

/-- A host simple enough to run: the hash keeps the whole content, and a
temporary name is longer than any path there is. -/
def Host.plain : Host where
  sha256 content := '#' :: content
  sha256_ne_nil _ := List.cons_ne_nil _ _
  tempName fs dir :=
    joinPath dir (List.replicate (fs.files.map (·.1.length)).sum 'e' ++ ".tmp".toList)
  tempName_free fs dir := by
    generalize path_eq : joinPath dir (_ ++ ".tmp".toList) = path
    have long : (fs.files.map (·.1.length)).sum < path.length := by
      rw [← path_eq]
      unfold joinPath
      split
      · simp
      · split
        · simp_all
        · split <;> simp <;> omega
    unfold FileSystem.read Store.get
    rw [Option.map_eq_none_iff, List.find?_eq_none]
    intro entry member
    have short : entry.1.length ≤ (fs.files.map (·.1.length)).sum :=
      List.le_sum_of_mem (List.mem_map_of_mem member)
    have : entry.1 ≠ lower path := by
      intro same
      rw [same, length_lower] at short
      omega
    simpa using this
  tempName_tmp fs dir := by
    have ends (before : Text) : ".tmp".toList <:+ lower (before ++ ".tmp".toList) := by
      rw [lower_append]
      exact List.suffix_append ..
    unfold joinPath
    split
    · exact ends _
    · split
      · simp_all
      · split
        · rw [← List.append_assoc]
          exact ends _
        · rw [← List.cons_append, ← List.append_assoc]
          exact ends _
  errorText _ := "error".toList

/-- The disk as a run sees it: the files, and how many calls were made. -/
structure Disk where
  fs : FileSystem
  clock : Nat := 0
  deriving DecidableEq, Repr

namespace Disk

variable (host : Host) (faults : Faults)

def tick (d : Disk) : Disk :=
  { d with clock := d.clock + 1 }

/-- `CopyFileW` with overwriting: `none` on success, else the error code. -/
def copyFile (d : Disk) (source target : Text) : Option Nat × Disk :=
  match faults d.clock with
  | some fault => (some fault.code, { d.tick with fs := d.fs.leave target fault.torn })
  | none =>
    match d.fs.read source with
    | none => (some ERROR_FILE_NOT_FOUND, d.tick)
    | some content =>
      if FileSystem.SameFile source target then (some ERROR_SHARING_VIOLATION, d.tick)
      else (none, { d.tick with fs := d.fs.write target content })

def moveFile (d : Disk) (source target : Text) : Option Nat × Disk :=
  match faults d.clock with
  | some fault => (some fault.code, d.tick)
  | none =>
    match d.fs.read source with
    | none => (some ERROR_FILE_NOT_FOUND, d.tick)
    | some content =>
      (none, { d.tick with fs := (d.fs.remove source).write target content })

def deleteFile (d : Disk) (path : Text) : Option Nat × Disk :=
  match faults d.clock with
  | some fault => (some fault.code, d.tick)
  | none =>
    match d.fs.read path with
    | none => (some ERROR_FILE_NOT_FOUND, d.tick)
    | some _ => (none, { d.tick with fs := d.fs.remove path })

/-- `CreateFileW` with `CREATE_ALWAYS`: the file is empty from here on. -/
def createFile (d : Disk) (path : Text) : Option Nat × Disk :=
  match faults d.clock with
  | some fault => (some fault.code, d.tick)
  | none => (none, { d.tick with fs := d.fs.write path [] })

def writeFile (d : Disk) (path data : Text) : Option Nat × Disk :=
  match faults d.clock with
  | some fault => (some fault.code, { d.tick with fs := d.fs.leave path fault.torn })
  | none => (none, { d.tick with fs := d.fs.write path data })

def sha256File (d : Disk) (path : Text) : Text × Disk :=
  match faults d.clock with
  | some _ => ([], d.tick)
  | none => (((d.fs.read path).map host.sha256).getD [], d.tick)

def tempFile (d : Disk) (dir : Text) : Except Nat Text × Disk :=
  match faults d.clock with
  | some fault => (.error fault.code, d.tick)
  | none => (.ok (host.tempName d.fs dir),
      { d.tick with fs := d.fs.write (host.tempName d.fs dir) [] })

/-- `CreateDirectoryW`, which a file of that name stands in the way of. -/
def createDirectory (d : Disk) (path : Text) : Option Nat × Disk :=
  match faults d.clock with
  | some fault => (some fault.code, d.tick)
  | none =>
    if d.fs.fileExists path then (some ERROR_ALREADY_EXISTS, d.tick)
    else (none, { d.tick with fs := d.fs.makeDir path })

end Disk

end EdvrPatch.Installer
