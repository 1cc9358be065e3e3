import EdvrPatch.Lib.Crc32

/-! Reading a zip archive of stored entries: the record at its end, the central directory it points
to, and the local entries this points to. -/
namespace EdvrPatch.Lib.Zip

open Lib

/-! ### Fields, one after the other -/

def takeHalf : Bytes → Option (Nat × Bytes)
  | a :: b :: rest => some (a.toNat + 2 ^ 8 * b.toNat, rest)
  | _ => none

def takeWord : Bytes → Option (UInt32 × Bytes)
  | a :: b :: c :: d :: rest => some (bytesWord a b c d, rest)
  | _ => none

def takeBytes (n : Nat) (bytes : Bytes) : Option (Bytes × Bytes) :=
  if n ≤ bytes.length then some (bytes.take n, bytes.drop n) else none

def halfBytes (v : Nat) : Bytes :=
  [.ofNat v, .ofNat (v / 2 ^ 8)]

@[simp] theorem length_halfBytes (v : Nat) : (halfBytes v).length = 2 := rfl

@[simp] theorem takeHalf_halfBytes (v : Nat) (rest : Bytes) :
    takeHalf (halfBytes v ++ rest) = some (v % 2 ^ 16, rest) := by
  change some ((UInt8.ofNat v).toNat + 2 ^ 8 * (UInt8.ofNat (v / 2 ^ 8)).toNat, rest) = _
  rw [UInt8.toNat_ofNat', UInt8.toNat_ofNat']
  congr 2
  omega

@[simp] theorem takeWord_wordBytes (v : UInt32) (rest : Bytes) :
    takeWord (wordBytes v ++ rest) = some (v, rest) := by
  change some (bytesWord _ _ _ _, rest) = _
  rw [bytesWord_wordBytes]

@[simp] theorem takeBytes_append {n : Nat} {bytes : Bytes} (rest : Bytes) (size : bytes.length = n) :
    takeBytes n (bytes ++ rest) = some (bytes, rest) := by
  unfold takeBytes
  rw [if_pos (by rw [List.length_append]; omega), List.take_left' size, List.drop_left' size]

@[simp] theorem takeBytes_zero (bytes : Bytes) : takeBytes 0 bytes = some ([], bytes) :=
  @takeBytes_append 0 [] bytes rfl

/-! ### The archive -/

structure Header where
  flags : Nat
  method : Nat
  time : Nat
  date : Nat
  crc : UInt32
  compressed : UInt32
  size : UInt32
  deriving DecidableEq

def readHeader (bytes : Bytes) : Option (Header × Bytes) := do
  let (flags, bytes) ← takeHalf bytes
  let (method, bytes) ← takeHalf bytes
  let (time, bytes) ← takeHalf bytes
  let (date, bytes) ← takeHalf bytes
  let (crc, bytes) ← takeWord bytes
  let (compressed, bytes) ← takeWord bytes
  let (size, bytes) ← takeWord bytes
  return ({ flags, method, time, date, crc, compressed, size }, bytes)

structure LocalEntry where
  header : Header
  name : Bytes
  content : Bytes

def readLocal (bytes : Bytes) : Option LocalEntry := do
  let (signature, bytes) ← takeWord bytes
  guard (signature = 0x04034b50)
  let (_version, bytes) ← takeHalf bytes
  let (header, bytes) ← readHeader bytes
  let (nameLength, bytes) ← takeHalf bytes
  let (extraLength, bytes) ← takeHalf bytes
  let (name, bytes) ← takeBytes nameLength bytes
  let (_extra, bytes) ← takeBytes extraLength bytes
  let (content, _) ← takeBytes header.compressed.toNat bytes
  return { header, name, content }

structure CentralEntry where
  header : Header
  name : Bytes
  offset : UInt32

def readCentral (bytes : Bytes) : Option (CentralEntry × Bytes) := do
  let (signature, bytes) ← takeWord bytes
  guard (signature = 0x02014b50)
  let (_madeBy, bytes) ← takeHalf bytes
  let (_version, bytes) ← takeHalf bytes
  let (header, bytes) ← readHeader bytes
  let (nameLength, bytes) ← takeHalf bytes
  let (extraLength, bytes) ← takeHalf bytes
  let (commentLength, bytes) ← takeHalf bytes
  let (_disk, bytes) ← takeHalf bytes
  let (_internal, bytes) ← takeHalf bytes
  let (_external, bytes) ← takeWord bytes
  let (offset, bytes) ← takeWord bytes
  let (name, bytes) ← takeBytes nameLength bytes
  let (_extra, bytes) ← takeBytes extraLength bytes
  let (_comment, bytes) ← takeBytes commentLength bytes
  return ({ header, name, offset }, bytes)

/-- A file of the archive, with the checksum that the archive has for it. -/
structure StoredFile where
  name : Bytes
  content : Bytes
  crc : UInt32
  deriving DecidableEq

/-- The local entry has to say the same as the directory; a stored one is as long as its
file. -/
def readEntry (archive : Bytes) (c : CentralEntry) : Option StoredFile := do
  let l ← readLocal (archive.drop c.offset.toNat)
  guard (l.header = c.header ∧ l.name = c.name ∧ c.header.method = 0 ∧
    c.header.compressed = c.header.size)
  return { name := c.name, content := l.content, crc := c.header.crc }

def readDirectory (archive : Bytes) : Nat → Bytes → Option (List StoredFile)
  | 0, directory => if directory = [] then some [] else none
  | n + 1, directory => do
    let (c, directory) ← readCentral directory
    let file ← readEntry archive c
    let files ← readDirectory archive n directory
    return file :: files

/-- The record at the end: how many entries, and the size and place of the directory. What
follows it is its comment. -/
structure EndRecord where
  count : Nat
  size : UInt32
  offset : UInt32

def readEnd (bytes : Bytes) : Option EndRecord := do
  let (signature, bytes) ← takeWord bytes
  guard (signature = 0x06054b50)
  let (_disk, bytes) ← takeHalf bytes
  let (_directoryDisk, bytes) ← takeHalf bytes
  let (_onDisk, bytes) ← takeHalf bytes
  let (count, bytes) ← takeHalf bytes
  let (size, bytes) ← takeWord bytes
  let (offset, bytes) ← takeWord bytes
  let (commentLength, bytes) ← takeHalf bytes
  guard (bytes.length = commentLength)
  return { count, size, offset }

def findEnd (archive : Bytes) : Option EndRecord :=
  (List.range (archive.length + 1)).findSome? fun back => readEnd (archive.drop (archive.length - back))

def readZip (archive : Bytes) : Option (List StoredFile) := do
  let e ← findEnd archive
  let (directory, _) ← takeBytes e.size.toNat (archive.drop e.offset.toNat)
  readDirectory archive e.count directory

/-! ### Finding the end -/

theorem length_of_takeHalf {bytes rest : Bytes} {v : Nat} (taken : takeHalf bytes = some (v, rest)) :
    bytes.length = rest.length + 2 := by
  unfold takeHalf at taken
  split at taken
  · cases taken
    rfl
  · cases taken

theorem length_of_takeWord {bytes rest : Bytes} {v : UInt32} (taken : takeWord bytes = some (v, rest)) :
    bytes.length = rest.length + 4 := by
  unfold takeWord at taken
  split at taken
  · cases taken
    rfl
  · cases taken

theorem length_of_readEnd {bytes : Bytes} {e : EndRecord} (read : readEnd bytes = some e) :
    22 ≤ bytes.length := by
  obtain ⟨⟨_, b₁⟩, first, read⟩ := Option.bind_eq_some_iff.mp read
  obtain ⟨_, -, read⟩ := Option.bind_eq_some_iff.mp read
  obtain ⟨⟨_, b₂⟩, second, read⟩ := Option.bind_eq_some_iff.mp read
  obtain ⟨⟨_, b₃⟩, third, read⟩ := Option.bind_eq_some_iff.mp read
  obtain ⟨⟨_, b₄⟩, fourth, read⟩ := Option.bind_eq_some_iff.mp read
  obtain ⟨⟨_, b₅⟩, fifth, read⟩ := Option.bind_eq_some_iff.mp read
  obtain ⟨⟨_, b₆⟩, sixth, read⟩ := Option.bind_eq_some_iff.mp read
  obtain ⟨⟨_, b₇⟩, seventh, read⟩ := Option.bind_eq_some_iff.mp read
  obtain ⟨⟨_, b₈⟩, eighth, -⟩ := Option.bind_eq_some_iff.mp read
  rw [length_of_takeWord first, length_of_takeHalf second, length_of_takeHalf third,
    length_of_takeHalf fourth, length_of_takeHalf fifth, length_of_takeWord sixth,
    length_of_takeWord seventh, length_of_takeHalf eighth]
  omega

theorem findEnd_append {record : Bytes} {e : EndRecord} (read : readEnd record = some e)
    (size : record.length = 22) (body : Bytes) : findEnd (body ++ record) = some e := by
  have length : (body ++ record).length + 1 = 22 + (body.length + 1) := by
    rw [List.length_append, size]
    omega
  have none : (List.range 22).findSome? (fun back =>
      readEnd ((body ++ record).drop ((body ++ record).length - back))) = none := by
    refine List.findSome?_eq_none_iff.mpr fun back among => ?_
    have few := List.mem_range.mp among
    cases found : readEnd ((body ++ record).drop ((body ++ record).length - back)) with
    | none => rfl
    | some e' =>
      have long := length_of_readEnd found
      rw [List.length_drop] at long
      omega
  have here : (body ++ record).drop ((body ++ record).length - (22 + 0)) = record :=
    List.drop_left' (by rw [List.length_append, size]; rfl)
  unfold findEnd
  rw [length, List.range_add, List.findSome?_append, none, Option.none_or, List.range_succ_eq_map,
    List.map_cons, List.findSome?_cons, here, read]

end EdvrPatch.Lib.Zip
