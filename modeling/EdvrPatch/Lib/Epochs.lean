import Mathlib

/-! A log that some entries cut into epochs: what belongs to the epoch the log ends in,
and keys that rise within an epoch and start again in the next. -/
namespace EdvrPatch.Lib

inductive EpochMark where
  | opens
  | closes
  | inside
  deriving DecidableEq, Repr

variable {ε α : Type} (mark : ε → EpochMark)

def epochStep (entries : List ε) (e : ε) : List ε :=
  match mark e with
  | .opens => [e]
  | .closes => []
  | .inside => entries ++ [e]

/-- The entries since the last one that opened an epoch; none where it was closed. -/
def currentEpoch (log : List ε) : List ε :=
  log.foldl (epochStep mark) []

theorem currentEpoch_concat (log : List ε) (e : ε) :
    currentEpoch mark (log ++ [e]) = epochStep mark (currentEpoch mark log) e := by
  rw [currentEpoch, List.foldl_append]
  rfl

variable {e : ε}

theorem currentEpoch_opens (opens : mark e = .opens) (log : List ε) :
    currentEpoch mark (log ++ [e]) = [e] := by
  rw [currentEpoch_concat, epochStep, opens]

theorem currentEpoch_closes (closes : mark e = .closes) (log : List ε) :
    currentEpoch mark (log ++ [e]) = [] := by
  rw [currentEpoch_concat, epochStep, closes]

theorem currentEpoch_inside (inside : mark e = .inside) (log : List ε) :
    currentEpoch mark (log ++ [e]) = currentEpoch mark log ++ [e] := by
  rw [currentEpoch_concat, epochStep, inside]

def Publishes (entries : List ε) (part : ε → Option α) (value : α) : Prop :=
  ∃ e ∈ entries, part e = some value

variable {part : ε → Option α} {value : α}

theorem Publishes.more {entries : List ε} (published : Publishes entries part value) (e : ε) :
    Publishes (entries ++ [e]) part value := by
  obtain ⟨old, mem, isPart⟩ := published
  exact ⟨old, List.mem_append_left _ mem, isPart⟩

theorem Publishes.last (entries : List ε) (isPart : part e = some value) :
    Publishes (entries ++ [e]) part value :=
  ⟨e, List.mem_append_right _ (List.mem_singleton.mpr rfl), isPart⟩

theorem Publishes.only (isPart : part e = some value) : Publishes [e] part value :=
  Publishes.last [] isPart

/-- An epoch and a place in it, in the order of the epochs first. -/
def Later [LT α] (a b : α × α) : Prop := a.1 < b.1 ∨ a.1 = b.1 ∧ a.2 < b.2

end EdvrPatch.Lib
