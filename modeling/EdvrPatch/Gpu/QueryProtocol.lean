import EdvrPatch.Lib.Monitor

/-! The D3D11 query protocol that both timing instruments share. A slot holds the
query objects of one disjoint scope. The protocol is read off the recorded device
calls alone. -/
namespace EdvrPatch.Gpu

open Lib

/-- A call to the device about a slot, with the answer where there is one. -/
inductive QueryCall (slots : Nat) where
  | create (slot : Fin slots) (ok : Bool)
  | begins (slot : Fin slots) (ok : Bool)
  | timestamp (slot : Fin slots) (index : Nat) (ok : Bool)
  | ends (slot : Fin slots) (ok : Bool)
  | poll (slot : Fin slots)
  | destroy (slot : Fin slots)
  deriving DecidableEq, Repr

/-- What the device knows: the slots that have their objects, the slot whose
scope is open, the answer to the end of the last scope of a slot, and whether an
end has failed. -/
structure Queries (slots : Nat) where
  created : Fin slots → Bool := fun _ => false
  scope : Option (Fin slots) := none
  closed : Fin slots → Option Bool := fun _ => none
  uncertain : Bool := false

variable {slots : Nat}

/-- A failed begin opens no scope. A failed end leaves it uncertain whether the
scope was closed, so nothing may begin after it. -/
def queryProtocol (slots markers : Nat) : Monitor (Queries slots) (QueryCall slots) where
  advance q
    | .create slot ok => if ok then { q with created := Function.update q.created slot true } else q
    | .begins slot ok =>
      if ok then { q with scope := some slot, closed := Function.update q.closed slot none } else q
    | .timestamp _ _ _ => q
    | .ends slot ok =>
      { q with
        scope := none
        closed := Function.update q.closed slot (some ok)
        uncertain := q.uncertain || !ok }
    | .poll _ => q
    | .destroy slot => { q with created := Function.update q.created slot false }
  allows q
    | .create slot _ => q.created slot = false
    | .begins slot _ => q.created slot = true ∧ q.scope = none ∧ q.uncertain = false
    | .timestamp slot index _ => q.scope = some slot ∧ index < markers
    | .ends slot _ => q.scope = some slot
    | .poll slot => q.created slot = true ∧ q.scope ≠ some slot
    | .destroy slot => q.created slot = true ∧ q.scope ≠ some slot

def creations (slot : Fin slots) (log : List (QueryCall slots)) : Nat :=
  log.countP (· = .create slot true)

def destructions (slot : Fin slots) (log : List (QueryCall slots)) : Nat :=
  log.countP (· = .destroy slot)

/-- In a lawful log the objects of a slot are destroyed as often as they were
created, less the ones that are still there. -/
theorem creations_eq {markers : Nat} (slot : Fin slots) {q : Queries slots}
    {log : List (QueryCall slots)} (lawful : (queryProtocol slots markers).Admits q log) :
    creations slot log + (q.created slot).toNat =
      destructions slot log + (((queryProtocol slots markers).after q log).created slot).toNat := by
  induction log generalizing q with
  | nil => simp [creations, destructions]
  | cons call log ih =>
    obtain ⟨allowed, rest⟩ := lawful
    have later := ih rest
    unfold creations destructions at later ⊢
    rw [List.countP_cons, List.countP_cons, Monitor.after_cons]
    cases call with
    | create other ok =>
      cases ok with
      | false => simpa [queryProtocol] using later
      | true =>
        by_cases same : other = slot
        · subst same
          have fresh : q.created other = false := allowed
          simp [queryProtocol, fresh] at later ⊢
          omega
        · simp [queryProtocol, same, Ne.symm same] at later ⊢
          omega
    | begins other ok => cases ok <;> simpa [queryProtocol] using later
    | timestamp other index ok => simpa [queryProtocol] using later
    | ends other ok => simpa [queryProtocol] using later
    | poll other => simpa [queryProtocol] using later
    | destroy other =>
      by_cases same : other = slot
      · subst same
        have there : q.created other = true := allowed.1
        simp [queryProtocol, there] at later ⊢
        omega
      · simp [queryProtocol, same, Ne.symm same] at later ⊢
        omega

end EdvrPatch.Gpu
