import EdvrPatch.Lib.Compact
import EdvrPatch.Lib.Traced
import EdvrPatch.Hotkeys.Hotkey

/-! The keyboard gate of `input_gate.cpp`, at the door of the buffered reads. The state of
the keyboard is what `GetAsyncKeyState` answers within a call, key by key. -/
namespace EdvrPatch.InputGate

open Lib Hotkeys

def VK_XBUTTON2 : Nat := 0x06
def VK_SHIFT : Nat := 0x10
def VK_CONTROL : Nat := 0x11
def VK_MENU : Nat := 0x12
def VK_PAUSE : Nat := 0x13
def DIK_PAUSE : Nat := 0xC5

/-- INSERT, DELETE, HOME, END, PRIOR, NEXT, LEFT, RIGHT, UP, DOWN, DIVIDE, RCONTROL, RMENU,
LWIN, RWIN, APPS and SNAPSHOT. -/
def extendedKeys : List Nat :=
  [0x2D, 0x2E, 0x24, 0x23, 0x21, 0x22, 0x25, 0x27, 0x26, 0x28, 0x6F, 0xA3, 0xA5, 0x5B, 0x5C, 0x5D, 0x2C]

/-- What does not change while the gate runs: the setting `menu.keyboard`, the summon key as
it is packed, and the keyboard layout's `MapVirtualKeyW`. -/
structure Setup where
  privateWanted : Bool := true
  summon : UInt32 := 0
  mapVirtualKey : Nat → Nat

namespace Setup

variable (s : Setup)

def inputGateDikOf (vk : Nat) : Nat :=
  if vk = 0 ∨ 255 < vk then 0
  else if vk = VK_PAUSE then DIK_PAUSE
  else
    let sc := s.mapVirtualKey vk
    if sc = 0 ∨ 0x7F < sc then 0
    else if vk ∈ extendedKeys then sc ||| 0x80
    else sc

def unpackSummon : Nat × UInt32 :=
  if s.summon &&& 0x80000000 = 0 then (0, 0)
  else (((s.summon >>> 8) &&& 0xFF).toNat, (s.summon >>> 16) &&& 0x7)

end Setup

def modsNow (readKey : Nat → Bool) : UInt32 :=
  (if readKey VK_CONTROL then kHotkeyCtrl else 0) ||| (if readKey VK_MENU then kHotkeyAlt else 0) |||
    (if readKey VK_SHIFT then kHotkeyShift else 0)

def summonModsHeldNow (mods : UInt32) (readKey : Nat → Bool) : Bool := modsSatisfied mods (modsNow readKey)

structure Gate where
  keysPrivate : Bool := false
  releaseTail : Bool := false
  heldVk : Nat → Bool := fun _ => false
  heldDik : Nat → Bool := fun _ => false

structure DiObjectData where
  dwOfs : Nat
  dwData : Nat
  dwTimeStamp : Nat := 0
  dwSequence : Nat := 0
  uAppData : Nat := 0
  deriving DecidableEq, Repr

def DiObjectData.down (e : DiObjectData) : Bool := e.dwData &&& 0x80 != 0

def dataKept (priv : Bool) (summonDik : Nat) (summonModsHeld : Bool) (e : DiObjectData) : Bool :=
  !(priv && e.down) && !(decide (summonDik ≠ 0) && summonModsHeld && decide (e.dwOfs = summonDik))

def inputGateFilterData (data : List DiObjectData) (count : Nat) (priv : Bool) (summonDik : Nat)
    (summonModsHeld : Bool) : List DiObjectData × Nat :=
  compact (dataKept priv summonDik summonModsHeld) data count

/-- A call of the game for buffered data. `events` is what the call itself hands over,
nothing where it fails, and `runs` is false where the fault guard does not let the filter
finish. -/
structure DataCall where
  retired : Bool := false
  cbObj : Nat := 24
  runs : Bool := true
  isKeyboard : Bool := true
  events : List DiObjectData
  readKey : Nat → Bool

/-- The door filters the call. Otherwise all of it goes to the game as it is. -/
def DataCall.filtered (call : DataCall) : Bool :=
  !call.retired && decide (call.cbObj = 24) && call.runs && call.isKeyboard

namespace Gate

variable (s : Setup) (g : Gate)

def dikHeld (heldVk : Nat → Bool) (k : Nat) : Bool :=
  (List.range 256).any fun vk =>
    heldVk vk && decide (s.inputGateDikOf vk ≠ 0) && decide (s.inputGateDikOf vk = k)

def setHeld (heldVk : Nat → Bool) : Gate :=
  { g with heldVk := heldVk, heldDik := dikHeld s heldVk, releaseTail := (List.range 256).any heldVk }

def captureReleaseTail (readKey : Nat → Bool) : Gate :=
  g.setHeld s fun vk => decide (vk < 256) && decide (VK_XBUTTON2 < vk) && readKey vk

def refreshReleaseTail (readKey : Nat → Bool) : Gate :=
  if ¬g.releaseTail then g else g.setHeld s fun vk => g.heldVk vk && readKey vk

def inputGateSetPrivate (priv : Bool) (readKey : Nat → Bool) : Gate :=
  let want := priv && s.privateWanted
  if g.keysPrivate ≠ want then
    let g := if ¬want then g.captureReleaseTail s readKey else { g with releaseTail := false }
    { g with keysPrivate := want }
  else if ¬want then g.refreshReleaseTail s readKey
  else g

/-- The modifiers of the summon key are held, as the call finds them. -/
def swallow (call : DataCall) : Bool :=
  decide (s.unpackSummon.1 ≠ 0) && summonModsHeldNow s.unpackSummon.2 call.readKey

def tailDrops (e : DiObjectData) : Bool :=
  e.down && decide (e.dwOfs < 256) && g.heldDik e.dwOfs

def filterDeviceData (call : DataCall) : List DiObjectData :=
  if call.events = [] ∨ ¬call.filtered then call.events
  else if ¬g.keysPrivate ∧ ¬swallow s call ∧ ¬g.releaseTail then call.events
  else
    let (buffer, kept) := inputGateFilterData call.events call.events.length g.keysPrivate
      s.unpackSummon.1 (swallow s call)
    let (buffer, kept) := if g.releaseTail then compact (fun e => !g.tailDrops e) buffer kept else (buffer, kept)
    buffer.take kept

end Gate

inductive GateOp where
  /-- The menu says every frame whether it has the keys. -/
  | setPrivate (priv : Bool) (readKey : Nat → Bool)
  | tick (readKey : Nat → Bool)
  | data (call : DataCall)

def Gate.apply (s : Setup) (g : Gate) : GateOp → Gate
  | .setPrivate priv readKey => g.inputGateSetPrivate s priv readKey
  | .tick readKey => g.refreshReleaseTail s readKey
  | .data _ => g

def gateAfter (s : Setup) (ops : List GateOp) : Gate := ops.foldl (Gate.apply s) {}

def produced (ops : List GateOp) : List DiObjectData :=
  ops.flatMap fun op => match op with
    | .data call => call.events
    | _ => []

def Gate.gives (s : Setup) (g : Gate) : GateOp → List DiObjectData
  | .data call => g.filterDeviceData s call
  | _ => []

def received (s : Setup) (ops : List GateOp) : List DiObjectData :=
  (traced (fun g op => (Gate.apply s g op, Gate.gives s g op)) {} ops).2

end EdvrPatch.InputGate
