import EdvrPatch.Lib.Traced
import EdvrPatch.Gpu.SpanState

/-! The shared words of `gpu_frame_timing.cpp` under any number of threads. Each
atomic operation is one step, and so is each critical section of the snapshot lock;
between two of them a thread stands at a task. The token is twice the sequence, plus
one once it is armed. -/
namespace EdvrPatch.Gpu

inductive TokenTask where
  | idle
  | tokenLoad (seq : Nat)
  | tokenRaise (seq old : Nat)
  | applicationLoad (sequence : Nat)
  | applicationRaise (sequence old : Nat)
  | arm (sequence : Nat)
  | poisonLoad (sequence : Nat) (cancels : Bool)
  | poisonRaise (sequence old : Nat) (cancels : Bool)
  | publishing (result : GpuSpanResult)
  | checking (rest out : List GpuSpanResult)
  deriving DecidableEq, Repr

/-- A thread begins a call, or goes on with the one it is in. A weak compare and
swap may fail without cause. -/
inductive TokenMove where
  | waitBegin
  | waitEnd (sequence flags : Nat)
  | cancel (sequence : Nat)
  | poison (sequence : Nat)
  | publish (result : GpuSpanResult)
  | snapshot
  | readCompletions (cursor capacity : Nat)
  | proceed (spurious : Bool)

inductive TokenEvent where
  | waitBegan (thread seq : Nat)
  | waitEnded (thread sequence : Nat) (armed : Bool)
  | cancelled (thread sequence : Nat) (taken : Bool)
  | readBegun (thread : Nat)
  | readReturned (thread : Nat) (out : List GpuSpanResult)
  deriving DecidableEq, Repr

/-- `completions` has every published result, of which the ring keeps the last 256. -/
structure TokenRace where
  nextSequence : Nat := 0
  token : Nat := 0
  poisoned : Nat := 0
  applicationSequence : Nat := 0
  snapshot : Option GpuSpanResult := none
  completions : List GpuSpanResult := []
  tasks : Nat → TokenTask := fun _ => .idle

def kGpuFrameNativeWait : Nat := 3

def kCompletionCapacity : Nat := 256

/-- A sequence an event may carry: not zero, and with room for the armed bit. -/
def inRange (sequence : Nat) : Bool := sequence != 0 && sequence ≤ (2 ^ 64 - 1) / 2

def clipped (poisoned : Nat) (result : GpuSpanResult) : GpuSpanResult :=
  if result.reason = .valid ∧ result.sequence ≤ poisoned then
    { result with reason := .incomplete, outerTicks := 0, leftTicks := 0, rightTicks := 0 }
  else result

/-- The results `gpuFrameReadCompletions` copies, from the first that the ring still
has. -/
def unread (completions : List GpuSpanResult) (cursor capacity : Nat) : List GpuSpanResult :=
  (completions.drop (max cursor (completions.length - kCompletionCapacity))).take capacity

namespace TokenRace

def goto (r : TokenRace) (thread : Nat) (task : TokenTask) : TokenRace :=
  { r with tasks := fun t => if t = thread then task else r.tasks t }

def poisonDone (thread sequence : Nat) (cancels : Bool) : List TokenEvent :=
  if cancels then [.cancelled thread sequence true] else []

def proceed (r : TokenRace) (thread : Nat) (spurious : Bool) : TokenRace × List TokenEvent :=
  match r.tasks thread with
  | .idle => (r, [])
  | .tokenLoad seq => (r.goto thread (.tokenRaise seq r.token), [])
  | .tokenRaise seq old =>
    if seq ≤ old / 2 then (r.goto thread .idle, [.waitBegan thread seq])
    else if r.token = old ∧ ¬spurious then
      ({ r.goto thread .idle with token := 2 * seq }, [.waitBegan thread seq])
    else (r.goto thread (.tokenRaise seq r.token), [])
  | .applicationLoad sequence => (r.goto thread (.applicationRaise sequence r.applicationSequence), [])
  | .applicationRaise sequence old =>
    if sequence ≤ old then (r.goto thread (.arm sequence), [])
    else if r.applicationSequence = old ∧ ¬spurious then
      ({ r.goto thread (.arm sequence) with applicationSequence := sequence }, [])
    else (r.goto thread (.applicationRaise sequence r.applicationSequence), [])
  | .arm sequence =>
    if r.token = 2 * sequence then
      ({ r.goto thread .idle with token := 2 * sequence + 1 }, [.waitEnded thread sequence true])
    else (r.goto thread .idle, [.waitEnded thread sequence false])
  | .poisonLoad sequence cancels =>
    (r.goto thread (.poisonRaise sequence r.poisoned cancels), [])
  | .poisonRaise sequence old cancels =>
    if sequence ≤ old then (r.goto thread .idle, poisonDone thread sequence cancels)
    else if r.poisoned = old ∧ ¬spurious then
      ({ r.goto thread .idle with poisoned := sequence }, poisonDone thread sequence cancels)
    else (r.goto thread (.poisonRaise sequence r.poisoned cancels), [])
  | .publishing result =>
    -- A late result never replaces a newer frame in the readout.
    let newer := match r.snapshot with
      | none => true
      | some shown => decide (shown.sequence ≤ result.sequence)
    ({ r.goto thread .idle with
      snapshot := if newer then some result else r.snapshot
      completions := r.completions ++ [result] }, [])
  | .checking [] out => (r.goto thread .idle, [.readReturned thread out])
  | .checking (result :: rest) out =>
    (r.goto thread (.checking rest (out ++ [clipped r.poisoned result])), [])

def start (r : TokenRace) (thread : Nat) : TokenMove → TokenRace × List TokenEvent
  | .waitBegin =>
    let seq := (r.nextSequence + 1) % 2 ^ 64
    let drawn := { r with nextSequence := seq }
    if inRange seq then (drawn.goto thread (.tokenLoad seq), [])
    else (drawn, [.waitBegan thread 0])
  | .waitEnd sequence flags =>
    if ¬inRange sequence then (r, [.waitEnded thread sequence false])
    else if flags = kGpuFrameNativeWait then (r.goto thread (.applicationLoad sequence), [])
    else if flags = 1 then (r.goto thread (.arm sequence), [])
    else (r.goto thread (.poisonLoad sequence false), [])
  | .cancel sequence =>
    if ¬inRange sequence then (r, [.cancelled thread sequence false])
    else (r.goto thread (.poisonLoad sequence true), [])
  | .poison sequence => (r.goto thread (.poisonLoad sequence false), [])
  | .publish result => (r.goto thread (.publishing (clipped r.poisoned result)), [])
  | .snapshot => (r.goto thread (.checking r.snapshot.toList []), [.readBegun thread])
  | .readCompletions cursor capacity =>
    (r.goto thread (.checking (unread r.completions cursor capacity) []), [.readBegun thread])
  | .proceed _ => (r, [])

/-- A thread in a call can only go on with it, and an idle one only begin a call. -/
def step (r : TokenRace) (thread : Nat) (move : TokenMove) : TokenRace × List TokenEvent :=
  match move with
  | .proceed spurious => r.proceed thread spurious
  | move => if r.tasks thread = .idle then r.start thread move else (r, [])

end TokenRace

def raceAfter (moves : List (Nat × TokenMove)) : TokenRace × List TokenEvent :=
  Lib.traced (fun r move => r.step move.1 move.2) {} moves

/-- What is seen in the moves `after`, made after the moves `before`. -/
def eventsAfter (before after : List (Nat × TokenMove)) : List TokenEvent :=
  Lib.saidAfter (fun r move => TokenRace.step r move.1 move.2) {} before after

end EdvrPatch.Gpu
