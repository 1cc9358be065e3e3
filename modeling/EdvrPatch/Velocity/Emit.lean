import EdvrPatch.Common.Memory
import EdvrPatch.Lib.Probing

/-! The emit half of `engine_velocity_emit.h`: after a call that appended records, the bracket
checks each against the engine's record and writes the previous pose into it when the table has one.
-/
namespace EdvrPatch.Velocity

open Lib

def kJoined : UInt32 := 0x7FC0ED01
def kMasked : UInt32 := 0x7FC0ED02

def kRecordNode : UInt64 := 0x18
def kRecordPos : UInt64 := 0x170
def kRecordQuat : UInt64 := 0x17C
def kRecordKey : UInt64 := 0x250
def kOwnerDictionary : UInt64 := 0x260
def kEntryAnchor : UInt64 := 0x28
def kEntryTail : UInt64 := 0x30
def kNodePrev : UInt64 := 0x08
def kNodeCount : UInt64 := 0x18
def kNodeRecords : UInt64 := 0x20
def kNodeCapacity : UInt64 := 8
def kItemBytes : UInt64 := 0x150
def kItemQuat : UInt64 := 0x08
def kItemPos : UInt64 := 0x10
def kItemMarker : UInt64 := 0x120
def kItemPrevPos : UInt64 := 0x124
def kItemPrevQuat : UInt64 := 0x138
def kMaxAppended : Nat := 7

/-- A pose in the order of the engine's record: the position and the packed quaternion. -/
structure Pose where
  w0 : UInt32 := 0
  w1 : UInt32 := 0
  w2 : UInt32 := 0
  w3 : UInt32 := 0
  w4 : UInt32 := 0
  deriving DecidableEq, Repr

def Pose.position (p : Pose) : List UInt32 := [p.w0, p.w1, p.w2]
def Pose.quaternion (p : Pose) : List UInt32 := [p.w3, p.w4]
def Pose.w (p : Pose) : List UInt32 := p.position ++ p.quaternion

def Pose.ofWords : List UInt32 → Option Pose
  | [w0, w1, w2, w3, w4] => some { w0, w1, w2, w3, w4 }
  | _ => none

def markerHash (now prev : Pose) : UInt32 :=
  (now.w ++ prev.w).foldl (fun h v =>
    let h := (h ^^^ v) * 0x01000193
    h ^^^ (h >>> 13)) 0x811C9DC5

def mixBits (x : UInt64) : UInt64 :=
  let x := x ^^^ (x >>> 33)
  let x := x * 0xff51afd7ed558ccd
  let x := x ^^^ (x >>> 33)
  let x := x * 0xc4ceb9fe1a85ec53
  x ^^^ (x >>> 33)

def kShards : UInt32 := 16
def kSlots : UInt32 := 1024
def kProbe : Nat := 32

/-- `now` is the pose of the last emission, in present frame `frame`. It is certified when
it is the one validated pose of that frame. -/
structure Entry where
  record : UInt64 := 0
  node : UInt64 := 0
  frame : UInt32 := 0
  now : Pose := {}
  prev : Pose := {}
  joined : Bool := false
  certified : Bool := false
  deriving DecidableEq, Repr

abbrev Slot := UInt32 × UInt32

abbrev Table := Slot → Entry

def shardOf (record : UInt64) : UInt32 :=
  (mixBits record >>> 60).toUInt32 &&& (kShards - 1)

def slotOf (record : UInt64) : UInt32 :=
  (mixBits record).toUInt32 &&& (kSlots - 1)

def rowOf (record : UInt64) : List Slot :=
  (List.range kProbe).map fun i => (shardOf record, (slotOf record + .ofNat i) &&& (kSlots - 1))

namespace Table

def findIn (t : Table) (record : UInt64) (frame : UInt32) :
    List Slot → Option Slot → Option Slot × Option Slot
  | [], reuse => (none, reuse)
  | i :: row, reuse =>
    if (t i).record = record then (some i, reuse)
    else if (t i).record = 0 then (none, reuse.or (some i))
    else findIn t record frame row
      (if reuse = none ∧ 2 ≤ frame - (t i).frame then some i else reuse)

def find (t : Table) (record : UInt64) (frame : UInt32) : Option Slot × Option Slot :=
  t.findIn record frame (rowOf record) none

inductive Result
  | joined
  | masked
  deriving DecidableEq, Repr

def resolveFound (found : Entry) (node : UInt64) (frame : UInt32) (pose : Pose) (proven : Bool) :
    Entry × Result × Pose :=
  let fresh : Entry :=
    { record := found.record, node, frame, now := pose, prev := pose, certified := proven }
  if found.node ≠ node then (fresh, .masked, pose)
  else
  let age := frame - found.frame
  if age = 0 then
    if !proven then ({ found with certified := false }, .masked, pose)
    else if pose ≠ found.now then ({ found with certified := false }, .masked, pose)
    else if !found.certified ∨ !found.joined then (found, .masked, pose)
    else (found, .joined, found.prev)
  else if age = 1 then
    let history := found.certified && proven
    let next := { found with
      prev := found.now, now := pose, frame, certified := proven, joined := history }
    if !history then (next, .masked, pose) else (next, .joined, found.now)
  else (fresh, .masked, pose)

/-- The table, whether the emission is joined, and the previous pose for it. -/
def resolve (t : Table) (record node : UInt64) (frame : UInt32) (pose : Pose) (proven : Bool) :
    Table × Result × Pose :=
  match t.find record frame with
  | (none, none) => (t, .masked, pose)
  | (none, some reuse) =>
    (Function.update t reuse
      { record, node, frame, now := pose, prev := pose, certified := proven }, .masked, pose)
  | (some i, _) =>
    let (next, result, prev) := resolveFound (t i) node frame pose proven
    (Function.update t i next, result, prev)

def taint (t : Table) (record : UInt64) (frame : UInt32) : Table :=
  match t.find record frame with
  | (some i, _) => if (t i).frame = frame then Function.update t i { t i with certified := false } else t
  | (none, _) => t

end Table

def read (m : Memory) (address : UInt64) (bytes : Nat) : Option Bytes :=
  if address = 0 then none else m.copy address bytes

def read64 (m : Memory) (address : UInt64) : Option UInt64 :=
  (read m address 8).map littleEndian

def collectItems (m : Memory) (entry : UInt64) (k : Nat) : Option (List UInt64) := do
  let anchor := entry + kEntryAnchor
  let tail ← read64 m (entry + kEntryTail)
  if tail = 0 ∨ tail = anchor then none
  let n ← read64 m (tail + kNodeCount)
  if n = 0 ∨ kNodeCapacity < n then none
  if k ≤ n.toNat then
    return (List.range k).map fun j => tail + kNodeRecords + (n - .ofNat k + .ofNat j) * kItemBytes
  let previous ← read64 m (tail + kNodePrev)
  if previous = 0 ∨ previous = anchor then none
  let full ← read64 m (previous + kNodeCount)
  if full ≠ kNodeCapacity then none
  let rest := k - n.toNat
  return (List.range rest).map (fun j =>
      previous + kNodeRecords + (kNodeCapacity - .ofNat rest + .ofNat j) * kItemBytes) ++
    (List.range n.toNat).map fun j => tail + kNodeRecords + .ofNat j * kItemBytes

def readRecordPose (m : Memory) (record : UInt64) : Option (Pose × UInt64) := do
  let node ← read64 m (record + kRecordNode)
  let position ← read m (record + kRecordPos) 12
  let quaternion ← read m (record + kRecordQuat) 8
  let pose ← Pose.ofWords (wordsOf (position ++ quaternion))
  return (pose, node)

def readItemPose (m : Memory) (item : UInt64) : Option Pose := do
  let position ← read m (item + kItemPos) 12
  let quaternion ← read m (item + kItemQuat) 8
  Pose.ofWords (wordsOf (position ++ quaternion))

/-- A call of the bracket, with the memory that it finds. The engine's lookup may be
absent and may fault. -/
structure Call where
  record : UInt64
  owner : UInt64
  before : Int
  after : Int
  frame : UInt32
  lookup : Option (UInt64 → UInt64 → Option UInt64)
  memory : Memory
  writable : UInt64 → Nat → Bool

def Call.entry (c : Call) : UInt64 :=
  match c.lookup with
  | none => 0
  | some lookup => (lookup (c.owner + kOwnerDictionary) (c.record + kRecordKey)).getD 0

/-- The items that the call has appended, when its dictionary entry can be located. -/
def Call.items (c : Call) : Option (List UInt64) :=
  if c.entry = 0 then none else collectItems c.memory c.entry (c.after - c.before).toNat

/-- What is written into an item; a fault ends the writing of that item. -/
def writeItem (c : Call) (item : UInt64) (pose written : Pose) (tag : UInt32) :
    List (UInt64 × List UInt32) :=
  if c.writable (item + kItemPrevPos) 12 then
    (item + kItemPrevPos, written.position) ::
      if c.writable (item + kItemPrevQuat) 8 then
        (item + kItemPrevQuat, written.quaternion) ::
          if c.writable (item + kItemMarker) 4 then
            [(item + kItemMarker, [tag ^^^ markerHash pose written])]
          else []
      else []
  else []

structure Observed where
  table : Table
  answer : Option (Table.Result × Pose) := none
  writes : List (UInt64 × List UInt32) := []

def observe (table : Table) (c : Call) : Observed :=
  if c.after < c.before then { table }
  else
  let k := (c.after - c.before).toNat
  if kMaxAppended < k then { table }
  else if k = 0 then { table }
  else
  match readRecordPose c.memory c.record with
  | none => { table := table.taint c.record c.frame }
  | some (pose, node) =>
    match c.items with
    | none => { table := table.taint c.record c.frame }
    | some items =>
      let ok := items.filter fun item => readItemPose c.memory item = some pose
      let proven := ok.length = k
      let (table, result, prev) := table.resolve c.record node c.frame pose proven
      let joined := result = .joined
      { table
        answer := some (result, prev)
        writes := ok.flatMap fun item =>
          writeItem c item pose (if joined then prev else pose) (if joined then kJoined else kMasked) }

def observeAll (table : Table) (calls : List Call) : Table :=
  calls.foldl (fun table c => (observe table c).table) table

end EdvrPatch.Velocity
