import EdvrPatch.Gpu.TokenRace
import EdvrPatch.Timing.Native

/-! The completion queues of `native_timing.cpp` and `gpu_frame_timing.cpp`: a ring of
the last 256 values, each beside its ordinal, and readers that keep a cursor. The two
read functions differ in the oldest ordinal they take, as only the GPU queue can be
abandoned. -/
namespace EdvrPatch.Timing

open Gpu (GpuSpanResult clipped)

def kCompletionCapacity : UInt64 := 256

def uint64Max : UInt64 := 0xffffffffffffffff

structure Completion (α : Type) where
  ordinal : UInt64 := 0
  value : α

structure CompletionQueue (α : Type) where
  nextCompletion : UInt64
  completionFloor : UInt64
  completions : Nat → Completion α

structure CompletionReader where
  cursor : UInt64 := 0
  dropped : UInt64 := 0
  deriving DecidableEq, Repr

variable {α β : Type}

namespace CompletionQueue

def fresh (blank : α) : CompletionQueue α where
  nextCompletion := 1
  completionFloor := 1
  completions := fun _ => ⟨0, blank⟩

def slot (ordinal : UInt64) : Nat := (ordinal % kCompletionCapacity).toNat

def publish (q : CompletionQueue α) (value : α) : CompletionQueue α :=
  { q with
    nextCompletion := q.nextCompletion + 1
    completions := Function.update q.completions (slot q.nextCompletion) ⟨q.nextCompletion, value⟩ }

def abandon (q : CompletionQueue α) (blank : α) : CompletionQueue α :=
  { q with completions := fun _ => ⟨0, blank⟩, completionFloor := q.nextCompletion }

def latest (q : CompletionQueue α) : UInt64 :=
  if q.nextCompletion ≠ 0 then q.nextCompletion - 1 else 0

end CompletionQueue

def oldestHeld (latest : UInt64) : UInt64 :=
  if kCompletionCapacity ≤ latest then latest - kCompletionCapacity + 1 else 1

def afterCursor (cursor : UInt64) : UInt64 :=
  if cursor = uint64Max then uint64Max else cursor + 1

/-- What a read returns. There is one entry for each slot counted; it is empty if the
ordinals did not match and the slot was not written. -/
structure CompletionRead (β : Type) where
  reader : CompletionReader
  count : UInt32
  out : List (Option (UInt64 × β))

/-- The body of the loop. What is seen of a value may differ from one to the next. -/
def readItem (q : CompletionQueue α) (view : Nat → α → β) (start : UInt64)
    (run : CompletionReader × List (Option (UInt64 × β))) (i : Nat) :
    CompletionReader × List (Option (UInt64 × β)) :=
  let ordinal := start + UInt64.ofNat i
  let item := q.completions (CompletionQueue.slot ordinal)
  if item.ordinal ≠ ordinal then
    ({ dropped := run.1.dropped + 1, cursor := ordinal }, run.2 ++ [none])
  else ({ run.1 with cursor := item.ordinal }, run.2 ++ [some (item.ordinal, view i item.value)])

def CompletionReader.skip (reader : CompletionReader) (oldest : UInt64) : CompletionReader :=
  if afterCursor reader.cursor < oldest then
    { dropped := reader.dropped + (oldest - afterCursor reader.cursor), cursor := oldest - 1 }
  else reader

/-- The read functions, but for how they find the oldest ordinal. -/
def readCompletions (oldest : UInt64) (q : CompletionQueue α) (view : Nat → α → β)
    (reader : CompletionReader) (hasOut : Bool) (capacity : UInt32) : CompletionRead β :=
  if !hasOut || capacity = 0 then ⟨reader, 0, []⟩
  else
    let skipped := reader.skip oldest
    let start := max (afterCursor skipped.cursor) oldest
    let available := if start ≤ q.latest then q.latest - start + 1 else 0
    let count := (min capacity.toUInt64 available).toUInt32
    let (reader, out) := (List.range count.toNat).foldl (readItem q view start) (skipped, [])
    ⟨reader, count, out⟩

def nativeTimingReadCompletions (q : CompletionQueue NativeTimingSnapshot) :=
  readCompletions (oldestHeld q.latest) q fun _ value => value

/-- `poisoned` has what the atomic is at each of the values that are looked at. -/
def gpuFrameReadCompletions (q : CompletionQueue GpuSpanResult) (poisoned : Nat → Nat) :=
  readCompletions (max q.completionFloor (oldestHeld q.latest)) q fun i => clipped (poisoned i)

/-- What happens to a queue and to one of its readers. A read is told `x`. -/
inductive QueueCall (α ρ : Type) where
  | publish (value : α)
  | abandon
  | read (x : ρ) (hasOut : Bool) (capacity : UInt32)

/-- A queue, a reader, all that was published and all that the reader got. -/
structure QueueRun (α β : Type) where
  queue : CompletionQueue α
  reader : CompletionReader := {}
  published : List α := []
  delivered : List (UInt64 × β) := []

def ReadFunction (α ρ β : Type) : Type :=
  CompletionQueue α → ρ → CompletionReader → Bool → UInt32 → CompletionRead β

def QueueRun.step {ρ : Type} (blank : α) (reads : ReadFunction α ρ β) (run : QueueRun α β) :
    QueueCall α ρ → QueueRun α β
  | .publish value =>
    { run with queue := run.queue.publish value, published := run.published ++ [value] }
  | .abandon => { run with queue := run.queue.abandon blank }
  | .read x hasOut capacity =>
    let read := reads run.queue x run.reader hasOut capacity
    { run with reader := read.reader, delivered := run.delivered ++ read.out.filterMap id }

def queueRun {ρ : Type} (blank : α) (reads : ReadFunction α ρ β) (calls : List (QueueCall α ρ)) :
    QueueRun α β :=
  calls.foldl (QueueRun.step blank reads) { queue := .fresh blank }

def nativeReads : ReadFunction NativeTimingSnapshot Unit NativeTimingSnapshot :=
  fun q _ => nativeTimingReadCompletions q

def gpuReads : ReadFunction GpuSpanResult (Nat → Nat) GpuSpanResult :=
  gpuFrameReadCompletions

end EdvrPatch.Timing
