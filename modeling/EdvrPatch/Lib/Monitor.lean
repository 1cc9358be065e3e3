import Mathlib

/-! Objects that are driven by calls and leave a log, and monitors that judge the log. A monitor
keeps the protocol's own state, read off the log alone, and says which entry is lawful in which
state. The run rule reduces a statement about every run to one call. -/
namespace EdvrPatch.Lib

structure Monitor (σ ε : Type) where
  advance : σ → ε → σ
  allows : σ → ε → Prop

namespace Monitor

variable {σ ε : Type} (m : Monitor σ ε)

def after (s : σ) (log : List ε) : σ :=
  log.foldl m.advance s

/-- Every entry is lawful in the state the entries before it have led to. -/
def Admits : σ → List ε → Prop
  | _, [] => True
  | s, e :: rest => m.allows s e ∧ Admits (m.advance s e) rest

@[simp] theorem after_nil (s : σ) : m.after s [] = s := rfl

@[simp] theorem after_cons (s : σ) (e : ε) (log : List ε) :
    m.after s (e :: log) = m.after (m.advance s e) log := rfl

@[simp] theorem admits_nil (s : σ) : m.Admits s [] := trivial

@[simp] theorem admits_cons (s : σ) (e : ε) (log : List ε) :
    m.Admits s (e :: log) ↔ m.allows s e ∧ m.Admits (m.advance s e) log := Iff.rfl

@[simp] theorem after_append (s : σ) (first rest : List ε) :
    m.after s (first ++ rest) = m.after (m.after s first) rest := by
  simp [after, List.foldl_append]

@[simp] theorem admits_append (s : σ) (first rest : List ε) :
    m.Admits s (first ++ rest) ↔ m.Admits s first ∧ m.Admits (m.after s first) rest := by
  induction first generalizing s with
  | nil => simp
  | cons e tail ih => simp [ih, and_assoc]

theorem Admits.allows_at {m : Monitor σ ε} {s : σ} {first rest : List ε} {e : ε}
    (admitted : m.Admits s (first ++ e :: rest)) : m.allows (m.after s first) e := by
  rw [admits_append, admits_cons] at admitted
  exact admitted.2.1

/-- The same monitor behind a log that is finer or coarser than its entries:
`view` says what it gets to see of each. -/
def viewed {δ : Type} (view : δ → List ε) : Monitor σ δ where
  advance s e := m.after s (view e)
  allows s e := m.Admits s (view e)

theorem viewed_after {δ : Type} (view : δ → List ε) (s : σ) (log : List δ) :
    (m.viewed view).after s log = m.after s (log.flatMap view) := by
  induction log generalizing s with
  | nil => rfl
  | cons e rest ih =>
    rw [after_cons, ih, List.flatMap_cons, after_append]
    rfl

theorem viewed_admits {δ : Type} (view : δ → List ε) (s : σ) (log : List δ) :
    (m.viewed view).Admits s log ↔ m.Admits s (log.flatMap view) := by
  induction log generalizing s with
  | nil => simp
  | cons e rest ih =>
    rw [admits_cons, ih, List.flatMap_cons, admits_append]
    rfl

end Monitor

/-- An object of type `α` that answers calls of type `κ`, each with a log. -/
structure Machine (α κ ε : Type) where
  perform : α → κ → α × List ε

namespace Machine

variable {α κ ε σ : Type} (machine : Machine α κ ε)

/-- A whole run: the object left behind and everything it logged, in order. -/
def run (a : α) : List κ → α × List ε
  | [] => (a, [])
  | call :: rest =>
      let first := machine.perform a call
      let later := run first.1 rest
      (later.1, first.2 ++ later.2)

@[simp] theorem run_nil (a : α) : machine.run a [] = (a, []) := rfl

@[simp] theorem run_cons (a : α) (call : κ) (rest : List κ) :
    machine.run a (call :: rest) =
      ((machine.run (machine.perform a call).1 rest).1,
        (machine.perform a call).2 ++ (machine.run (machine.perform a call).1 rest).2) := rfl

@[simp] theorem run_append (a : α) (first rest : List κ) :
    machine.run a (first ++ rest) =
      ((machine.run (machine.run a first).1 rest).1,
        (machine.run a first).2 ++ (machine.run (machine.run a first).1 rest).2) := by
  induction first generalizing a with
  | nil => simp
  | cons call tail ih => simp [ih]

/-- One call keeps the object and the monitor linked and logs only lawful
entries. -/
def Keeps (m : Monitor σ ε) (link : α → σ → Prop) : Prop :=
  ∀ a s call, link a s →
    m.Admits s (machine.perform a call).2 ∧
      link (machine.perform a call).1 (m.after s (machine.perform a call).2)

theorem run_keeps {m : Monitor σ ε} {link : α → σ → Prop}
    (keeps : machine.Keeps m link) (calls : List κ) {a : α} {s : σ} (linked : link a s) :
    m.Admits s (machine.run a calls).2 ∧
      link (machine.run a calls).1 (m.after s (machine.run a calls).2) := by
  induction calls generalizing a s with
  | nil => exact ⟨trivial, linked⟩
  | cons call rest ih =>
    obtain ⟨first, linked'⟩ := keeps a s call linked
    obtain ⟨later, final⟩ := ih linked'
    simp only [run_cons, Monitor.admits_append, Monitor.after_append]
    exact ⟨⟨first, later⟩, final⟩

end Machine

end EdvrPatch.Lib
