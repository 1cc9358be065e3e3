import Mathlib

/-! Undo logs. An action that may fail is undone by replaying a log, newest
entry first. What the replay gives back need not be the old state itself: it is
related to it by `R`, and undo logs compose along `R`. -/
namespace EdvrPatch.Lib

section

variable {σ υ : Type} (undoOne : υ → σ → Option σ)

/-- Replay a log, newest entry first, stopping at the first entry that fails. -/
def rollback : List υ → σ → Option σ
  | [], s => some s
  | entry :: older, s => (undoOne entry s).bind (rollback older)

/-- From any state related to `after`, a replay of `log` that goes through ends
in one related to `before`. -/
def Undoes (R : σ → σ → Prop) (log : List υ) (before after : σ) : Prop :=
  ∀ a b, R after a → rollback undoOne log a = some b → R before b

variable {undoOne}

theorem rollback_append (newer older : List υ) (s : σ) :
    rollback undoOne (newer ++ older) s =
      (rollback undoOne newer s).bind (rollback undoOne older) := by
  induction newer generalizing s with
  | nil => rfl
  | cons entry rest ih =>
    simp only [List.cons_append, rollback, Option.bind_assoc]
    congr 1
    funext s'
    exact ih s'

theorem Undoes.nil {R : σ → σ → Prop} {before after : σ}
    (weaken : ∀ a, R after a → R before a) : Undoes undoOne R [] before after := by
  intro a b related replayed
  cases replayed
  exact weaken a related

theorem Undoes.append {R : σ → σ → Prop} {newer older : List υ} {before middle after : σ}
    (second : Undoes undoOne R newer middle after) (first : Undoes undoOne R older before middle) :
    Undoes undoOne R (newer ++ older) before after := by
  intro a b related replayed
  rw [rollback_append, Option.bind_eq_some_iff] at replayed
  obtain ⟨mid, newerDone, olderDone⟩ := replayed
  exact first mid b (second a mid related newerDone) olderDone

end

end EdvrPatch.Lib
