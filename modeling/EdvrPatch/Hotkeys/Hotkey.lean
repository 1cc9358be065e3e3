import EdvrPatch.Common.Text

/-! Hotkeys that are polled with the state of the keyboard (`hotkey.cpp`). A registry they share
says which bindings there are, so that a plain key gives way to a chord on it. -/
namespace EdvrPatch.Hotkeys

structure Binding where
  vk : Int := 0
  mods : UInt32 := 0
  deriving DecidableEq

structure Hotkey where
  binding : Binding := {}
  down : Bool := false
  deriving DecidableEq

def kHotkeyCtrl : UInt32 := 1
def kHotkeyAlt : UInt32 := 2
def kHotkeyShift : UInt32 := 4

def modsSatisfied (want held : UInt32) : Bool :=
  want &&& ~~~held == 0

def registerBinding (bindings : List Binding) (b : Binding) : List Binding :=
  if b.vk = 0 then bindings
  else if b ∈ bindings then bindings
  else if bindings.length < 16 then bindings ++ [b]
  else bindings

def betterMatchExists (bindings : List Binding) (mine : Binding) (held : UInt32) : Bool :=
  bindings.any fun b =>
    b.vk == mine.vk && b.mods != mine.mods && modsSatisfied b.mods held && !modsSatisfied b.mods mine.mods

def hotkeyWouldFire (bindings : List Binding) (b : Binding) (held : UInt32) : Bool :=
  b.vk != 0 && modsSatisfied b.mods held && !betterMatchExists bindings b held

/-- The key of a binding that does not parse is zero, and it has no modifiers then. -/
def Hotkey.setBinding (h : Hotkey) (parsed : Int × UInt32) : Hotkey :=
  { h with binding := { vk := parsed.1, mods := if parsed.1 ≠ 0 then parsed.2 else 0 } }

/-- The key that is latched is the raw one, whether the binding fired or not. -/
def Hotkey.pressedWith (bindings : List Binding) (h : Hotkey) (keyDown : Bool) (held : UInt32)
    (focused : Bool) : Bool × Hotkey :=
  if h.binding.vk = 0 then (false, h)
  else
    let fire := keyDown && hotkeyWouldFire bindings h.binding held && focused
    (fire && !h.down, { h with down := keyDown })

/-- The hotkeys with the registry. The keys are those of the last poll, and `found` says
of which hotkeys it found the key down. -/
structure Board (ι : Type) where
  bindings : List Binding := []
  hotkey : ι → Hotkey := fun _ => {}
  keys : Int → Bool := fun _ => false
  found : ι → Bool := fun _ => false

inductive Step (ι : Type) where
  | setBinding (i : ι) (name : Text)
  | poll (keys : Int → Bool) (held : UInt32)

namespace Board

variable {ι : Type} [DecidableEq ι] (virtualKeyFromName : Text → Int × UInt32) (s : Board ι)

def fires (keys : Int → Bool) (held : UInt32) (i : ι) : Bool :=
  ((s.hotkey i).pressedWith s.bindings (keys (s.hotkey i).binding.vk) held true).1

def step : Step ι → Board ι
  | .setBinding i name =>
    let h := (s.hotkey i).setBinding (virtualKeyFromName name)
    { s with
      bindings := registerBinding s.bindings h.binding
      hotkey := Function.update s.hotkey i h }
  | .poll keys held =>
    { s with
      hotkey := fun i =>
        ((s.hotkey i).pressedWith s.bindings (keys (s.hotkey i).binding.vk) held true).2
      keys := keys
      found := fun i => (s.hotkey i).binding.vk ≠ 0 && keys (s.hotkey i).binding.vk }

def run (steps : List (Step ι)) : Board ι :=
  steps.foldl (step virtualKeyFromName) {}

end Board

end EdvrPatch.Hotkeys
