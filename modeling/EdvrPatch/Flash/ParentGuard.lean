import EdvrPatch.Lib.Keyed

/-! The table of guarded parents. A parent is judged on how its poses agreed before, and its entry
is found by a walk over a fixed table. -/
namespace EdvrPatch.Flash

def kCapacity : Nat := 256
def kUnseenFramesForNew : UInt32 := 90
def kRecentAgreeFrames : UInt32 := 3
def kMaxStreak : UInt32 := 3

inductive PoseClass
  | agree
  | near
  | disagree
  deriving DecidableEq

structure Verdict where
  eligible : Bool
  justCrossedPersistent : Bool
  deriving DecidableEq

structure Entry where
  parent : UInt64 := 0
  lastSeenFrame : UInt32 := 0
  lastAgreeFrame : UInt32 := 0
  streak : UInt32 := 0
  used : Bool := false
  hasAgreed : Bool := false
  loggedPersistent : Bool := false
  deriving DecidableEq

structure Call where
  parent : UInt64
  frame : UInt32
  cls : PoseClass
  deriving DecidableEq

def Entry.wasNew (e : Entry) (frame : UInt32) : Bool :=
  !e.used || kUnseenFramesForNew < frame - e.lastSeenFrame

/-- A parent that was not seen for long carries no streak into its return. -/
def Entry.returned (e : Entry) (frame : UInt32) : Entry :=
  if e.wasNew frame then { e with streak := 0, loggedPersistent := false } else e

def Entry.classified (e : Entry) (c : Call) : Verdict × Entry :=
  let wasNew := e.wasNew c.frame
  let e := e.returned c.frame
  let agreedRecently := e.hasAgreed && c.frame - e.lastAgreeFrame ≤ kRecentAgreeFrames
  let eligible := (wasNew || agreedRecently) && e.streak ≤ kMaxStreak
  let e := { e with used := true, parent := c.parent, lastSeenFrame := c.frame }
  match c.cls with
  | .agree =>
    ({ eligible, justCrossedPersistent := false },
      { e with hasAgreed := true, lastAgreeFrame := c.frame, streak := 0, loggedPersistent := false })
  | .disagree =>
    let e := if e.streak < 0xFFFFFFFF then { e with streak := e.streak + 1 } else e
    if kMaxStreak < e.streak && !e.loggedPersistent then
      ({ eligible, justCrossedPersistent := true }, { e with loggedPersistent := true })
    else ({ eligible, justCrossedPersistent := false }, e)
  | .near => ({ eligible, justCrossedPersistent := false }, e)

abbrev ParentGuardTable := Fin kCapacity → Entry

def ParentGuardTable.empty : ParentGuardTable := fun _ => {}

/-- The loop of `findOrEvict` over the slots that remain: the slot of the parent, and
else the first free slot or the one that was seen least recently. -/
def findIn (table : ParentGuardTable) (parent : UInt64) : List (Fin kCapacity) →
    Option (Fin kCapacity) → Fin kCapacity → UInt32 → Fin kCapacity × Bool
  | [], freeSlot, oldestSlot, _ => (freeSlot.getD oldestSlot, false)
  | i :: slots, freeSlot, oldestSlot, oldestFrame =>
    if (table i).used && (table i).parent == parent then (i, true)
    else
      let freeSlot := if !(table i).used && freeSlot.isNone then some i else freeSlot
      if (table i).lastSeenFrame < oldestFrame then
        findIn table parent slots freeSlot i (table i).lastSeenFrame
      else findIn table parent slots freeSlot oldestSlot oldestFrame

def findOrEvict (table : ParentGuardTable) (parent : UInt64) : Fin kCapacity × ParentGuardTable :=
  let (slot, found) := findIn table parent (List.finRange kCapacity) none ⟨0, by decide⟩ 0xFFFFFFFF
  if found then (slot, table) else (slot, Function.update table slot {})

def onClassified (table : ParentGuardTable) (c : Call) : Verdict × ParentGuardTable :=
  let (slot, table) := findOrEvict table c.parent
  let (verdict, e) := (table slot).classified c
  (verdict, Function.update table slot e)

def verdicts : ParentGuardTable → List Call → List Verdict :=
  Lib.alone onClassified

def afterCalls : ParentGuardTable → List Call → ParentGuardTable :=
  Lib.aged onClassified

@[simp] theorem Entry.classified_used (e : Entry) (c : Call) : (e.classified c).2.used = true := by
  unfold Entry.classified
  dsimp only
  split
  · rfl
  · split <;> split <;> rfl
  · rfl

@[simp] theorem Entry.classified_parent (e : Entry) (c : Call) :
    (e.classified c).2.parent = c.parent := by
  unfold Entry.classified
  dsimp only
  split
  · rfl
  · split <;> split <;> rfl
  · rfl

end EdvrPatch.Flash
