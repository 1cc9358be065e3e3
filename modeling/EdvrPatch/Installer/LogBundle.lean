import EdvrPatch.Installer.Paths
import EdvrPatch.Lib.Zip

/-! The log bundle (`logbundle.cpp`): log files packed into a zip of stored entries. -/
namespace EdvrPatch.Installer.LogBundle

open Lib

def put16 (out : Bytes) (value : Nat) : Bytes :=
  out ++ Zip.halfBytes value

def put32 (out : Bytes) (value : UInt32) : Bytes :=
  out ++ wordBytes value

def crcTableEntry : Nat → UInt32 → UInt32
  | 0, c => c
  | k + 1, c => crcTableEntry k (if c &&& 1 ≠ 0 then (0xEDB88320 : UInt32) ^^^ (c >>> 1) else c >>> 1)

def crcTable : List UInt32 :=
  (List.range 256).map fun i => crcTableEntry 8 (.ofNat i)

def crcStep (c : UInt32) (b : UInt8) : UInt32 :=
  (crcTable[((c ^^^ b.toUInt32) &&& 0xFF).toNat]?).getD 0 ^^^ (c >>> 8)

def crc32Of (data : Bytes) (running : UInt32) : UInt32 :=
  data.foldl crcStep (running ^^^ 0xFFFFFFFF) ^^^ 0xFFFFFFFF

structure SystemTime where
  year : Nat := 0
  month : Nat := 0
  day : Nat := 0
  hour : Nat := 0
  minute : Nat := 0
  second : Nat := 0

/-- The time and date of an entry; a time that cannot be told is the first that a zip has. -/
def dosStamp (written : Option SystemTime) : Nat × Nat :=
  let t := written.getD {}
  let year := if t.year < 1980 then 1980 else t.year
  let month := if t.month < 1 ∨ 12 < t.month then 1 else t.month
  let day := if t.day < 1 ∨ 31 < t.day then 1 else t.day
  (t.hour <<< 11 ||| t.minute <<< 5 ||| t.second / 2, (year - 1980) <<< 9 ||| month <<< 5 ||| day)

/-- What the system answers about a file: its size when it is opened, what a read of so many
bytes at a place gives, and its write time. -/
structure LogFile where
  path : Text
  opens : Bool := true
  size : Option Nat
  read : Nat → Nat → Option Bytes
  written : Option SystemTime := none

def chunkSize : Nat := 2 ^ 20

def readLoop (file : LogFile) (size : Nat) : Nat → Bytes → Option Bytes
  | 0, out => if out.length < size then none else some out
  | fuel + 1, out =>
    if out.length < size then
      let want := min (size - out.length) chunkSize
      match (file.read out.length want).map (List.take want) with
      | none => none
      | some [] => none
      | some chunk => readLoop file size fuel (out ++ chunk)
    else some out

/-- A file of 256 MiB at most, in the length that it had when it was opened. -/
def readWhole (file : LogFile) : Option Bytes :=
  if file.opens then
    match file.size with
    | none => none
    | some size => if 256 * 2 ^ 20 < size then none else readLoop file size size []
  else none

structure Entry where
  name : Bytes
  crc : UInt32
  size : UInt32
  offset : UInt32
  dosTime : Nat
  dosDate : Nat
  flags : Nat

def putHeader (zip : Bytes) (entry : Entry) : Bytes :=
  let zip := put16 zip entry.flags
  let zip := put16 zip 0
  let zip := put16 zip entry.dosTime
  let zip := put16 zip entry.dosDate
  let zip := put32 zip entry.crc
  let zip := put32 zip entry.size
  put32 zip entry.size

def putLocal (zip : Bytes) (entry : Entry) (data : Bytes) : Bytes :=
  let zip := put32 zip 0x04034b50
  let zip := put16 zip 20
  let zip := putHeader zip entry
  let zip := put16 zip entry.name.length
  let zip := put16 zip 0
  zip ++ entry.name ++ data

def putCentral (zip : Bytes) (entry : Entry) : Bytes :=
  let zip := put32 zip 0x02014b50
  let zip := put16 zip 20
  let zip := put16 zip 20
  let zip := putHeader zip entry
  let zip := put16 zip entry.name.length
  let zip := put16 zip 0
  let zip := put16 zip 0
  let zip := put16 zip 0
  let zip := put16 zip 0
  let zip := put32 zip 0
  let zip := put32 zip entry.offset
  zip ++ entry.name

def putEnd (zip : Bytes) (count : Nat) (directorySize directoryOffset : UInt32) : Bytes :=
  let zip := put32 zip 0x06054b50
  let zip := put16 zip 0
  let zip := put16 zip 0
  let zip := put16 zip count
  let zip := put16 zip count
  let zip := put32 zip directorySize
  let zip := put32 zip directoryOffset
  put16 zip 0

structure ZipState where
  zip : Bytes := []
  entries : List Entry := []
  skipped : List Text := []

def sizeLimit : Nat := 0xF0000000

def entryOf (zip name data : Bytes) (written : Option SystemTime) : Entry where
  name
  crc := crc32Of data 0
  size := .ofNat data.length
  offset := .ofNat zip.length
  dosTime := (dosStamp written).1
  dosDate := (dosStamp written).2
  flags := if name.all (· ≤ 0x7F) then 0 else 0x0800

def addFile (toUtf8 : Text → Bytes) (st : ZipState) (file : LogFile) (name : Text) :
    Except String ZipState :=
  match readWhole file with
  | none => .ok { st with skipped := st.skipped ++ [leafOf file.path] }
  | some data =>
    if sizeLimit < st.zip.length + data.length then .error "these logs are too large to package (over 4 GB)"
    else
      let entry := entryOf st.zip (toUtf8 name) data file.written
      .ok { st with zip := putLocal st.zip entry data, entries := st.entries ++ [entry] }

def finish (st : ZipState) : Bytes :=
  let directoryOffset : UInt32 := .ofNat st.zip.length
  let zip := st.entries.foldl putCentral st.zip
  putEnd zip st.entries.length (.ofNat zip.length - directoryOffset) directoryOffset

/-- What the system answers while the archive is written: how many bytes it takes at a place. -/
structure Disk where
  creates : Bool := true
  accepts : Nat → Nat

def writeLoop (disk : Disk) (zip : Bytes) : Nat → Bytes → Option Bytes
  | 0, file => if file.length < zip.length then none else some file
  | fuel + 1, file =>
    if file.length < zip.length then
      let want := min (zip.length - file.length) chunkSize
      match min (disk.accepts file.length) want with
      | 0 => none
      | wrote => writeLoop disk zip fuel (file ++ (zip.drop file.length).take wrote)
    else some file

/-- The archive on the disk, or what went wrong; and the files that were left out. -/
structure ZipAnswer where
  archive : Except String Bytes
  skipped : Option (List Text) := none

def writeZip (toUtf8 : Text → Bytes) (disk : Disk) (files : List LogFile) (names : List Text) : ZipAnswer :=
  if files.length ≠ names.length then
    { archive := .error "internal: zip file list and name list differ in length" }
  else
    match (files.zip names).foldlM (fun st item => addFile toUtf8 st item.1 item.2) {} with
    | .error e => { archive := .error e }
    | .ok st =>
      let archive :=
        if st.entries = [] then .error "there was nothing to collect"
        else if disk.creates then
          match writeLoop disk (finish st) (finish st).length [] with
          | none => .error "could not write the zip file"
          | some file => .ok file
        else .error "could not create the zip file"
      { archive, skipped := some st.skipped }

end EdvrPatch.Installer.LogBundle
