import EdvrPatch.Common.Memory
import EdvrPatch.Lib.Probing

/-! The change gate of `static_prop_gate.cpp`. A collection whose records are what they
were when its job ran last is not run again. -/
namespace EdvrPatch.PropGate

open Lib

def kCollectionCap : Nat := 4096
def kRecordsPerCollection : UInt64 := 16
def kRecordBytes : Nat := 24
def kRecordStride : UInt64 := 0x2F0
def kTruthOffset1 : UInt64 := 0x170
def kTruthBytes1 : Nat := 16
def kTruthOffset2 : UInt64 := 0x570
def kTruthBytes2 : Nat := 8
def kForcedRefreshFrames : UInt32 := 30
def kCountSanityCap : UInt64 := 0x10000

inductive Verdict
  | run
  | skip
  deriving DecidableEq, Repr

structure RecordSnap where
  record : UInt64 := 0
  bytes : Bytes := List.replicate kRecordBytes 0
  deriving DecidableEq, Repr

structure CollectionEntry where
  key : UInt64 := 0
  count : UInt32 := 0
  lastRunFrame : UInt32 := 0
  epoch : UInt32 := 0
  records : List RecordSnap := List.replicate kRecordsPerCollection.toNat {}
  deriving DecidableEq, Repr

abbrev Slot := Fin kCollectionCap

abbrev Table := Slot → CollectionEntry

structure Gate where
  table : Table := fun _ => {}
  liveCount : UInt32 := 0
  epoch : UInt32 := 1
  frame : UInt32 := 0
  lastGameplay : Bool := false
  lastJumpTunnel : Bool := false
  lastDisembarks : UInt32 := 0
  lastEmbarks : UInt32 := 0
  active : Bool := false
  statusText : String := "not_run"

def guardedRead (m : Memory) (address : UInt64) (bytes : Nat) : Option Bytes :=
  m.copy address bytes

def Gate.invalidateLocked (g : Gate) : Gate :=
  { g with epoch := g.epoch + 1 }

def Gate.clearLocked (g : Gate) : Gate :=
  { g with
    table := fun _ => {}
    liveCount := 0
    frame := 0
    lastGameplay := false
    lastJumpTunnel := false
    lastDisembarks := 0
    lastEmbarks := 0
    epoch := g.epoch + 1 }

def rowOf (array : UInt64) : List Slot :=
  (List.range kCollectionCap).map fun probe => ⟨((array >>> 4).toNat + probe) % kCollectionCap,
    Nat.mod_lt _ (by decide)⟩

def probe (t : Table) (array : UInt64) : List Slot → Option Slot × Option Slot
  | [] => (none, none)
  | s :: row =>
    if (t s).key = array then (some s, none)
    else if (t s).key = 0 then (none, some s)
    else probe t array row

def oldest (t : Table) : Slot :=
  (List.finRange kCollectionCap).tail.foldl (fun target s =>
    if (t s).lastRunFrame < (t target).lastRunFrame then s else target) ⟨0, by decide⟩

def refresh (g : Gate) (array : UInt64) (snap : List RecordSnap) (e : CollectionEntry) :
    CollectionEntry where
  key := array
  count := .ofNat snap.length
  epoch := g.epoch
  lastRunFrame := g.frame
  records := snap ++ e.records.drop snap.length

/-- The part of `decide` under the lock, with the truth that was read. -/
def Gate.decideLocked (g : Gate) (array : UInt64) (snap : List RecordSnap) : Gate × Verdict :=
  let store (s : Slot) := Function.update g.table s (refresh g array snap (g.table s))
  match probe g.table array (rowOf array) with
  | (none, some empty) => ({ g with table := store empty, liveCount := g.liveCount + 1 }, .run)
  | (none, none) =>
    ({ g with table := store (oldest g.table), liveCount := g.liveCount - 1 + 1 }, .run)
  | (some s, _) =>
    let entry := g.table s
    if entry.epoch ≠ g.epoch ∨ entry.count ≠ .ofNat snap.length then
      ({ g with table := store s }, .run)
    else
    let changed := entry.records.take snap.length ≠ snap
    let stale := kForcedRefreshFrames ≤ g.frame - entry.lastRunFrame
    if changed ∨ stale then ({ g with table := store s }, .run)
    else (g, .skip)

def readArray (m : Memory) (job0Param : UInt64) : Option UInt64 :=
  (guardedRead m (job0Param + 5 * 8) 8).map littleEndian

def readCount (m : Memory) (job0Param : UInt64) : Option UInt64 :=
  (guardedRead m (job0Param + 6 * 8) 8).map littleEndian

def readTruth (m : Memory) (array : UInt64) (i : Nat) : Option RecordSnap := do
  let record := array + .ofNat i * kRecordStride
  let first ← guardedRead m (record + kTruthOffset1) kTruthBytes1
  let second ← guardedRead m (record + kTruthOffset2) kTruthBytes2
  return { record, bytes := first ++ second }

/-- The array and the truth of its records, when the gate can key the collection. -/
def readCollection (m : Memory) (job0Param : UInt64) : Option (UInt64 × List RecordSnap) := do
  let array ← readArray m job0Param
  let count ← readCount m job0Param
  if kCountSanityCap < count then none
  if count = 0 ∨ array = 0 then none
  if kRecordsPerCollection < count then none
  let snap ← (List.range count.toNat).mapM (readTruth m array)
  return (array, snap)

def Gate.decide (g : Gate) (m : Memory) (job0Param : UInt64) : Gate × Verdict :=
  if !g.active then (g, .run)
  else
  match readCollection m job0Param with
  | none => (g, .run)
  | some (array, snap) => g.decideLocked array snap

def Gate.noteReset (g : Gate) : Gate :=
  if !g.active then g else g.invalidateLocked

structure Journal where
  gameplay : Bool
  disembarks : UInt32
  embarks : UInt32
  inJumpTunnel : Bool
  deriving DecidableEq, Repr

def Gate.notePresentFrame (g : Gate) (presentFrame : UInt32) (j : Journal) : Gate :=
  if !g.active then g
  else
  let g := { g with frame := presentFrame }
  let g := if j.gameplay ∧ !g.lastGameplay then g.invalidateLocked else g
  let g := { g with lastGameplay := j.gameplay }
  let g := if j.disembarks ≠ g.lastDisembarks then
    { g with lastDisembarks := j.disembarks }.invalidateLocked else g
  let g := if j.embarks ≠ g.lastEmbarks then
    { g with lastEmbarks := j.embarks }.invalidateLocked else g
  let g := if j.inJumpTunnel ∧ !g.lastJumpTunnel then g.invalidateLocked else g
  { g with lastJumpTunnel := j.inJumpTunnel }

/-- `sched` and `eval` are what the two hook sets answer when they are attached. -/
def Gate.enable (g : Gate) (sched eval : String) : Gate × Bool :=
  if g.active then (g, true)
  else if sched ≠ "installed" then ({ g with statusText := sched }, false)
  else if eval ≠ "installed" then ({ g with statusText := eval }, false)
  else ({ g.clearLocked.invalidateLocked with active := true, statusText := "installed" }, true)

def Gate.disable (g : Gate) : Gate :=
  if !g.active ∧ g.statusText = "not_run" then g
  else { { g with active := false }.clearLocked with statusText := "not_run" }

inductive Event
  | enable (sched eval : String)
  | disable
  | decide (memory : Memory) (job0Param : UInt64)
  | noteReset
  | notePresentFrame (presentFrame : UInt32) (journal : Journal)

def Gate.step (g : Gate) : Event → Gate
  | .enable sched eval => (g.enable sched eval).1
  | .disable => g.disable
  | .decide memory job0Param => (g.decide memory job0Param).1
  | .noteReset => g.noteReset
  | .notePresentFrame presentFrame journal => g.notePresentFrame presentFrame journal

def runAll (events : List Event) : Gate :=
  events.foldl Gate.step {}

end EdvrPatch.PropGate
