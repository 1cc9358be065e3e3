import EdvrPatch.Lib.Monitor
import EdvrPatch.Lib.Traced

/-! Any number of threads over one shared state. A thread stands at a task between two of its steps,
and in a step it reads and writes the shared state alone. The rule for invariants asks, of one step,
what it makes of its own task and that it does not disturb the others. -/
namespace EdvrPatch.Lib

structure Threads (σ τ : Type) where
  shared : σ
  tasks : Nat → τ

namespace Threads

variable {σ τ μ ε : Type} (step : σ → Nat → τ → μ → σ × τ × List ε)

def act (p : Threads σ τ) (move : Nat × μ) : Threads σ τ × List ε :=
  let (s, task, said) := step p.shared move.1 (p.tasks move.1) move.2
  ({ shared := s, tasks := Function.update p.tasks move.1 task }, said)

def run (start : Threads σ τ) (moves : List (Nat × μ)) : Threads σ τ × List ε :=
  traced (act step) start moves

variable {step} {start : Threads σ τ}

theorem invariant {P : σ → List ε → Prop} {Q : σ → List ε → Nat → τ → Prop}
    (shared : P start.shared []) (tasks : ∀ t, Q start.shared [] t (start.tasks t))
    (keeps : ∀ s said t task move, P s said → Q s said t task →
      P (step s t task move).1 (said ++ (step s t task move).2.2) ∧
      Q (step s t task move).1 (said ++ (step s t task move).2.2) t (step s t task move).2.1)
    (stable : ∀ s said t task move, P s said → Q s said t task → ∀ u other, u ≠ t → Q s said u other →
      Q (step s t task move).1 (said ++ (step s t task move).2.2) u other)
    (moves : List (Nat × μ)) :
    P (run step start moves).1.shared (run step start moves).2 ∧
      ∀ t, Q (run step start moves).1.shared (run step start moves).2 t
        ((run step start moves).1.tasks t) := by
  refine traced_induction (act step) start (P := fun p said => P p.shared said ∧
    ∀ t, Q p.shared said t (p.tasks t)) ⟨shared, tasks⟩ ?_ moves
  rintro p said ⟨t, move⟩ ⟨known, each⟩
  obtain ⟨after, mine⟩ := keeps p.shared said t (p.tasks t) move known (each t)
  refine ⟨after, fun u => ?_⟩
  show Q _ _ u (Function.update p.tasks t _ u)
  by_cases same : u = t
  · subst same
    rw [Function.update_self]
    exact mine
  · rw [Function.update_of_ne same]
    exact stable p.shared said t (p.tasks t) move known (each t) u (p.tasks u) same (each u)

theorem monitored {ν : Type} (m : Monitor ν ε) {v : ν} {P : σ → ν → Prop} {Q : σ → ν → Nat → τ → Prop}
    (shared : P start.shared v) (tasks : ∀ t, Q start.shared v t (start.tasks t))
    (keeps : ∀ s v t task move, P s v → Q s v t task →
      m.Admits v (step s t task move).2.2 ∧
      P (step s t task move).1 (m.after v (step s t task move).2.2) ∧
      Q (step s t task move).1 (m.after v (step s t task move).2.2) t (step s t task move).2.1)
    (stable : ∀ s v t task move, P s v → Q s v t task → ∀ u other, u ≠ t → Q s v u other →
      Q (step s t task move).1 (m.after v (step s t task move).2.2) u other)
    (moves : List (Nat × μ)) :
    m.Admits v (run step start moves).2 ∧
      P (run step start moves).1.shared (m.after v (run step start moves).2) ∧
      ∀ t, Q (run step start moves).1.shared (m.after v (run step start moves).2) t
        ((run step start moves).1.tasks t) := by
  have all := @invariant _ _ _ _ step start (fun s said => m.Admits v said ∧ P s (m.after v said))
    (fun s said => Q s (m.after v said)) ⟨trivial, shared⟩ tasks ?_ ?_ moves
  · exact ⟨all.1.1, all.1.2, all.2⟩
  · intro s said t task move known mine
    obtain ⟨lawful, after, own⟩ := keeps s _ t task move known.2 mine
    rw [Monitor.admits_append, Monitor.after_append]
    exact ⟨⟨⟨known.1, lawful⟩, after⟩, own⟩
  · intro s said t task move known mine u other apart theirs
    rw [Monitor.after_append]
    exact stable s _ t task move known.2 mine u other apart theirs

end Threads

section Inside

variable {τ : Type} (inside : τ → Prop)

variable {inside} {tasks : Nat → τ} {t : Nat} {task : τ}

end Inside

end EdvrPatch.Lib
