import EdvrPatch.Lib.Words

/-! Code that reads a block of memory, returns early and keeps a state: a read of a byte that is not
there is a fault. Code stays inside a string of bytes when none of its reads leaves it, whatever
stands around it; rules show it piece by piece. -/
namespace EdvrPatch.Lib

abbrev View := Nat → Option UInt8

def viewOf (bytes : Bytes) : View := fun i => bytes[i]?

inductive Stop
  | returned
  | fault
  deriving DecidableEq

def Guarded (σ α : Type) := View → σ → Except Stop α × σ

namespace Guarded

variable {σ α β : Type}

def pure (a : α) : Guarded σ α := fun _ s => (.ok a, s)

def bind (x : Guarded σ α) (f : α → Guarded σ β) : Guarded σ β := fun v s =>
  match x v s with
  | (.ok a, s) => f a v s
  | (.error e, s) => (.error e, s)

instance : Monad (Guarded σ) where
  pure := Guarded.pure
  bind := Guarded.bind

def modify (f : σ → σ) : Guarded σ Unit := fun _ s => (.ok (), f s)

def returnIf (c : Prop) [Decidable c] : Guarded σ Unit := fun _ s =>
  (if c then .error .returned else .ok (), s)

def orReturn : Option α → Guarded σ α
  | some a => fun _ s => (.ok a, s)
  | none => fun _ s => (.error .returned, s)

def byteAt (i : Nat) : Guarded σ UInt8 := fun v s =>
  (match v i with
    | some b => .ok b
    | none => .error .fault, s)

def halfAt (i : Nat) : Guarded σ UInt16 := do
  let low ← byteAt i
  let high ← byteAt (i + 1)
  return .ofNat (low.toNat + 2 ^ 8 * high.toNat)

def wordAt (i : Nat) : Guarded σ UInt32 := do
  let a ← byteAt i
  let b ← byteAt (i + 1)
  let c ← byteAt (i + 2)
  let d ← byteAt (i + 3)
  return bytesWord a b c d

end Guarded

def Shows (bytes : Bytes) (v : View) : Prop :=
  ∀ i < bytes.length, v i = bytes[i]?

/-- How a piece of code ends: not with a fault, and if it goes on, then with such a value. -/
def EndsWell {σ α : Type} (post : α → Prop) : Except Stop α × σ → Prop
  | (.ok a, _) => post a
  | (.error .returned, _) => True
  | (.error .fault, _) => False

structure Inside {σ α : Type} (bytes : Bytes) (x : Guarded σ α) (post : α → Prop) : Prop where
  same : ∀ v, Shows bytes v → ∀ s, x v s = x (viewOf bytes) s
  ends : ∀ s, EndsWell post (x (viewOf bytes) s)

namespace Inside

open Guarded

variable {σ α β : Type} {bytes : Bytes} {P : α → Prop} {Q : β → Prop} {x : Guarded σ α}

theorem pure {a : α} (holds : P a) : Inside bytes (Pure.pure a : Guarded σ α) P :=
  ⟨fun _ _ _ => rfl, fun _ => holds⟩

theorem bind {f : α → Guarded σ β} (first : Inside bytes x P)
    (next : ∀ a, P a → Inside bytes (f a) Q) : Inside bytes (x >>= f) Q := by
  refine ⟨fun v shows s => ?_, fun s => ?_⟩
  · have ends := first.ends s
    change Guarded.bind x f v s = Guarded.bind x f (viewOf bytes) s
    unfold Guarded.bind
    rw [first.same v shows s]
    generalize x (viewOf bytes) s = result at ends ⊢
    obtain ⟨_ | a, s'⟩ := result
    · rfl
    · exact (next a ends).same v shows s'
  · have ends := first.ends s
    change EndsWell Q (Guarded.bind x f (viewOf bytes) s)
    unfold Guarded.bind
    generalize x (viewOf bytes) s = result at ends ⊢
    obtain ⟨e | a, s'⟩ := result
    · cases e with
      | returned => trivial
      | fault => exact ends
    · exact (next a ends).ends s'

theorem imp {P' : α → Prop} (inside : Inside bytes x P) (weaker : ∀ a, P a → P' a) :
    Inside bytes x P' := by
  refine ⟨inside.same, fun s => ?_⟩
  have ends := inside.ends s
  generalize x (viewOf bytes) s = result at ends ⊢
  obtain ⟨e | a, s'⟩ := result
  · cases e with
    | returned => trivial
    | fault => exact ends
  · exact weaker a ends

theorem modify (f : σ → σ) : Inside bytes (Guarded.modify f) fun _ => True :=
  ⟨fun _ _ _ => rfl, fun _ => trivial⟩

theorem returnIf (c : Prop) [Decidable c] :
    Inside bytes (Guarded.returnIf c : Guarded σ Unit) fun _ => ¬c := by
  refine ⟨fun _ _ _ => rfl, fun s => ?_⟩
  unfold Guarded.returnIf
  split
  · trivial
  · assumption

theorem orReturn (o : Option α) :
    Inside bytes (Guarded.orReturn o : Guarded σ α) fun a => o = some a := by
  refine ⟨fun _ _ _ => ?_, fun s => ?_⟩
  · cases o <;> rfl
  · cases o with
    | none => trivial
    | some a => exact rfl

theorem byteAt {i : Nat} (there : i < bytes.length) :
    Inside bytes (Guarded.byteAt i : Guarded σ UInt8) fun b => bytes[i]? = some b := by
  refine ⟨fun v shows s => ?_, fun s => ?_⟩
  · unfold Guarded.byteAt
    rw [shows i there]
    rfl
  · unfold Guarded.byteAt viewOf
    rw [List.getElem?_eq_getElem there]
    rfl

theorem halfAt {i : Nat} (there : i + 2 ≤ bytes.length) :
    Inside bytes (Guarded.halfAt i : Guarded σ UInt16) fun _ => True :=
  bind (byteAt (by omega)) fun _ _ => bind (byteAt (by omega)) fun _ _ => pure trivial

theorem wordAt {i : Nat} (there : i + 4 ≤ bytes.length) :
    Inside bytes (Guarded.wordAt i : Guarded σ UInt32) fun _ => True :=
  bind (byteAt (by omega)) fun _ _ => bind (byteAt (by omega)) fun _ _ =>
    bind (byteAt (by omega)) fun _ _ => bind (byteAt (by omega)) fun _ _ => pure trivial

theorem foldlM {ι : Type} {f : α → ι → Guarded σ α} {is : List ι}
    (turn : ∀ a, ∀ i ∈ is, Inside bytes (f a i) fun _ => True) (a : α) :
    Inside bytes (is.foldlM f a) fun _ => True := by
  induction is generalizing a with
  | nil => exact pure trivial
  | cons i is ih =>
    obtain ⟨here, rest⟩ := List.forall_mem_cons.mp (fun i among => fun a => turn a i among)
    exact bind (here a) fun a _ => ih (fun a i among => rest i among a) a

end Inside

end EdvrPatch.Lib
