import EdvrPatch.Lib.Forwards

/-! Hooks in one shared table (`vtable_hook.cpp`), in place. A hook replaces entries by thunks, each
with a cell of what it forwards to; another tool's entry forwards to what it took when it was
written. The reports, the counts of a pass and the private tables are left out. -/
namespace EdvrPatch.VTable

open Lib

/-- What a slot may hold: code of the module that implements the table, a thunk of ours for
this slot, or another tool's entry with what it forwards to. -/
inductive Entry where
  | code (n : Nat)
  | thunk (n : Nat)
  | tool (n : Nat) (forwardsTo : Entry)
  deriving DecidableEq, Repr

def Entry.isCode : Entry → Bool
  | .code _ => true
  | _ => false

/-- A slot, with the forward cells of the thunks that are made for it. -/
structure Slot where
  entry : Entry
  cells : Nat → Option Entry := fun _ => none

def Slot.forward (s : Slot) : Entry → Option Entry
  | .code _ => none
  | .thunk n => s.cells n
  | .tool _ forwardsTo => some forwardsTo

structure Patch where
  slot : Nat
  replacement : Nat
  original : Entry
  origOut : Bool
  repatches : Nat := 0
  retired : Bool := false
  lastForeign : Option Entry := none
  lastForeignIsOwner : Bool := false
  deriving DecidableEq, Repr

structure Hook where
  attached : Bool := false
  execPrefix : Nat := 0
  patches : List Patch := []
  committed : Bool := false
  implModule : Bool := false
  deriving DecidableEq, Repr

structure SlotOwner where
  slot : Nat
  replacement : Nat
  hook : Nat
  deriving DecidableEq, Repr

def kMaxSlotOwners : Nat := 64
def kMaxRepatchesPerSlot : Nat := 64

structure Shared where
  table : Nat → Slot
  hooks : Nat → Hook := fun _ => {}
  slotOwners : List SlotOwner := []
  slotOwnersPoisoned : Bool := false

/-- What is found and what succeeds while one patch is looked at. -/
structure PatchAnswer where
  readable : Bool
  executable : Bool
  writes : Bool
  deriving DecidableEq, Repr

namespace Shared

def setHook (t : Shared) (h : Nat) (hook : Hook) : Shared :=
  { t with hooks := Function.update t.hooks h hook }

def writeEntry (t : Shared) (slot : Nat) (value : Entry) (writes : Bool) : Shared :=
  if writes then { t with table := Function.update t.table slot { t.table slot with entry := value } } else t

def setCell (t : Shared) (slot thunk : Nat) (value : Entry) : Shared :=
  let cells := Function.update (t.table slot).cells thunk (some value)
  { t with table := Function.update t.table slot { t.table slot with cells := cells } }

def attach (t : Shared) (h probed : Nat) : Shared :=
  if (t.hooks h).attached || decide (probed < 4) then t
  else t.setHook h { t.hooks h with attached := true, execPrefix := probed, patches := [] }

def setImplementationModule (t : Shared) (h : Nat) : Shared :=
  t.setHook h { t.hooks h with implModule := true }

def stages (t : Shared) (h index : Nat) (readable : Bool) : Bool :=
  (t.hooks h).attached && !(t.hooks h).committed && decide (index < (t.hooks h).execPrefix) && readable

def replace (t : Shared) (h index thunk : Nat) (origOut readable : Bool) : Shared :=
  if t.stages h index readable then
    let original := (t.table index).entry
    let staged := if origOut then t.setCell index thunk original else t
    staged.setHook h { t.hooks h with
      patches := (t.hooks h).patches ++
        [{ slot := index, replacement := thunk, original := original, origOut := origOut }] }
  else t

def installs (writes : Nat → Bool) : Shared → Nat → List Patch → Shared × Nat
  | t, written, [] => (t, written)
  | t, written, p :: rest =>
    if writes written then
      installs writes (t.writeEntry p.slot (.thunk p.replacement) true) (written + 1) rest
    else (t, written)

def rollsBack (undoes : Nat → Bool) : Shared → Nat → List Patch → Shared
  | t, _, [] => t
  | t, i, p :: rest => rollsBack undoes (t.writeEntry p.slot p.original (undoes i)) (i + 1) rest

/-- The patches are registered as long as there is room; else nothing is reclaimed any more. -/
def registers (h : Nat) : Shared → List Patch → Shared
  | t, [] => t
  | t, p :: rest =>
    if kMaxSlotOwners ≤ t.slotOwners.length then { t with slotOwnersPoisoned := true }
    else registers h { t with slotOwners := t.slotOwners ++ [⟨p.slot, p.replacement, h⟩] } rest

def commit (t : Shared) (h : Nat) (writes undoes : Nat → Bool) : Shared :=
  let hook := t.hooks h
  if !hook.attached || hook.committed || hook.patches.isEmpty then t
  else
    let (t, written) := installs writes t 0 hook.patches
    if written < hook.patches.length then
      (rollsBack undoes t 0 (hook.patches.take written)).setHook h { hook with patches := [] }
    else registers h (t.setHook h { hook with committed := true }) hook.patches

/-- In reverse order, each slot that still has the thunk gets its original back. -/
def restores (answers : Nat → PatchAnswer) : Shared → Nat → List Patch → Shared
  | t, _, [] => t
  | t, i, p :: rest =>
    if (answers i).readable && decide ((t.table p.slot).entry = .thunk p.replacement) then
      restores answers (t.writeEntry p.slot p.original (answers i).writes) (i + 1) rest
    else restores answers t (i + 1) rest

def uninstall (t : Shared) (h : Nat) (answers : Nat → PatchAnswer) : Shared :=
  let hook := t.hooks h
  if !hook.attached then t
  else
    let t := if hook.committed then restores answers t 0 hook.patches.reverse else t
    { t.setHook h { hook with
        attached := false, execPrefix := 0, patches := [], committed := false, implModule := false } with
      slotOwners := t.slotOwners.filter fun o => o.hook ≠ h }

def classifies (t : Shared) (h : Nat) (p : Patch) (now : Entry) : Patch :=
  if p.lastForeign = some now then p
  else { p with lastForeign := some now, lastForeignIsOwner := (t.hooks h).implModule && now.isCode }

/-- The entry is adopted as the thunk's forward, and the thunk goes back on top. -/
def adopts (t : Shared) (p : Patch) (now : Entry) (writes : Bool) : Shared × Patch :=
  let repatches := if !p.lastForeignIsOwner || !writes then p.repatches + 1 else p.repatches
  ((t.setCell p.slot p.replacement now).writeEntry p.slot (.thunk p.replacement) writes,
    { p with
      original := now, repatches := repatches
      retired := p.retired || decide (kMaxRepatchesPerSlot ≤ repatches) })

def reclaimsPatch (t : Shared) (h : Nat) (quietSlots : List Nat) (answer : PatchAnswer) (p : Patch) : Shared × Patch :=
  let now := (t.table p.slot).entry
  let owners := t.slotOwners.filter fun o => o.slot = p.slot
  if !answer.readable || decide (now = .thunk p.replacement) then (t, p)
  else if owners.any fun o => now = .thunk o.replacement then (t, p)
  else if p.retired then (t, p)
  else
    let p := t.classifies h p now
    if 1 < owners.length then (t, p)
    else if !(p.lastForeignIsOwner || quietSlots.contains p.slot) then (t, p)
    else if !p.origOut then (t, { p with retired := true })
    else if !answer.executable then (t, p)
    else t.adopts p now answer.writes

def reclaimsAll (h : Nat) (quietSlots : List Nat) (answers : Nat → PatchAnswer) :
    Shared → Nat → List Patch → Shared × List Patch
  | t, _, [] => (t, [])
  | t, i, p :: rest =>
    let (t, p) := t.reclaimsPatch h quietSlots (answers i) p
    let (t, rest) := reclaimsAll h quietSlots answers t (i + 1) rest
    (t, p :: rest)

def reclaim (t : Shared) (h : Nat) (quietSlots : List Nat) (answers : Nat → PatchAnswer) : Shared :=
  if !(t.hooks h).committed || t.slotOwnersPoisoned then t
  else
    let (t, patches) := reclaimsAll h quietSlots answers t 0 (t.hooks h).patches
    t.setHook h { t.hooks h with patches := patches }

end Shared

/-- What may happen to the table: a call of a hook, or a write of somebody else. The thunk
of a hook has the hook's number. A tool's entry forwards to the module's code, or to what
the slot held. -/
inductive Move where
  | attach (h probed : Nat)
  | setImplementationModule (h : Nat)
  | replace (h index : Nat) (origOut readable : Bool)
  | commit (h : Nat) (writes undoes : Nat → Bool)
  | reclaim (h : Nat) (quietSlots : List Nat) (answers : Nat → PatchAnswer)
  | uninstall (h : Nat) (answers : Nat → PatchAnswer)
  | moduleWrites (slot n : Nat)
  | toolWrites (slot n : Nat) (clean : Option Nat)

def Shared.move (t : Shared) : Move → Shared
  | .attach h probed => t.attach h probed
  | .setImplementationModule h => t.setImplementationModule h
  | .replace h index origOut readable => t.replace h index h origOut readable
  | .commit h writes undoes => t.commit h writes undoes
  | .reclaim h quietSlots answers => t.reclaim h quietSlots answers
  | .uninstall h answers => t.uninstall h answers
  | .moduleWrites slot n => t.writeEntry slot (.code n) true
  | .toolWrites slot n clean =>
    t.writeEntry slot (.tool n (match clean with | some m => .code m | none => (t.table slot).entry)) true

def Shared.init (codes : Nat → Nat) : Shared where
  table slot := { entry := .code (codes slot) }

end EdvrPatch.VTable
