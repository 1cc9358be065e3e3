import EdvrPatch.Common.Text

/-! The reader of the game's journal in `journal_watch.cpp`. It looks for the names of
events in the bytes of the file as they arrive, and acts on seven of them. A text the
reader scans is shorter than `2 ^ 32` bytes, as the file is read in slices. -/
namespace EdvrPatch.Journal

def stampMs (now : Nat) : Nat :=
  if now = 0 then 1 else now

structure State where
  gameplay : Bool := false
  disembarks : Nat := 0
  embarks : Nat := 0
  jumpArmedMs : Nat := 0
  carry : Text := []
  deriving DecidableEq, Repr

namespace State

def onEvent (now : Nat) (s : State) (name : Text) : State :=
  if name = "LoadGame".toList then { s with gameplay := true }
  else if name = "Disembark".toList then { s with disembarks := s.disembarks + 1 }
  else if name = "Embark".toList then { s with embarks := s.embarks + 1 }
  else if name = "Shutdown".toList then { s with gameplay := false, jumpArmedMs := 0 }
  else if name = "StartJump".toList then { s with jumpArmedMs := stampMs now }
  else if name = "FSDJump".toList then { s with jumpArmedMs := 0 }
  else if name = "SupercruiseEntry".toList then { s with jumpArmedMs := 0 }
  else s

end State

def kEventTok : Text := "\"event\":\"".toList
def kEventTokLen : Nat := 9
def kMaxName : Nat := 40
def kCarry : Nat := 32
def kHead : Nat := 256

/-- The bytes up to the quote that ends a name, or as many of them as are read. -/
def nameOf (p : Text) : Text :=
  (p.takeWhile (· ≠ '"')).take kMaxName

/-- The loop of `scanRange`. Once a token is found the loop goes on after the name
and the byte behind it: `skip` counts the bytes that are passed over. -/
def scanFrom (now : Nat) : Nat → Text → State → State
  | _, [], s => s
  | skip + 1, _ :: p, s => scanFrom now skip p s
  | 0, c :: p, s =>
    if kEventTok <+: c :: p ∧ kEventTokLen < (c :: p).length then
      let name := nameOf ((c :: p).drop kEventTokLen)
      let ended := ((c :: p).drop (kEventTokLen + name.length)).head? = some '"'
      scanFrom now (kEventTokLen + name.length) p (if ended then s.onEvent now name else s)
    else scanFrom now 0 p s

def scanRange (now : Nat) (s : State) (p : Text) : State :=
  scanFrom now 0 p s

def kept (data : Text) : Text :=
  data.drop (data.length - min data.length kCarry)

def scanEvents (now : Nat) (s : State) (data : Text) : State :=
  let stitched := if s.carry = [] then [] else s.carry ++ data.take kHead
  let s := if stitched = [] then s else scanRange now s stitched
  { scanRange now s data with carry := kept data }

def feed (s : State) (slices : List (Nat × Text)) : State :=
  slices.foldl (fun s slice => scanEvents slice.1 s slice.2) s

structure Seen where
  disembarks : Nat
  embarks : Nat
  gameplay : Bool
  jumpArmed : Bool
  deriving DecidableEq, Repr

def State.seen (s : State) : Seen :=
  { disembarks := s.disembarks, embarks := s.embarks, gameplay := s.gameplay
    jumpArmed := s.jumpArmedMs ≠ 0 }

end EdvrPatch.Journal
