import Mathlib

/-! Objects that are moved one step at a time and say something at each step. A run
is the state it leads to and all that was said on the way. -/
namespace EdvrPatch.Lib

variable {σ μ ε : Type} (step : σ → μ → σ × List ε) (start : σ)

def traced (moves : List μ) : σ × List ε :=
  moves.foldl (fun run move =>
    let (s, said) := step run.1 move
    (s, run.2 ++ said)) (start, [])

/-- What is said in the moves `after`, made after the moves `before`. -/
def saidAfter (before after : List μ) : List ε :=
  (traced step start (before ++ after)).2.drop (traced step start before).2.length

theorem traced_concat (moves : List μ) (move : μ) :
    traced step start (moves ++ [move]) =
      ((step (traced step start moves).1 move).1,
        (traced step start moves).2 ++ (step (traced step start moves).1 move).2) := by
  simp [traced]

theorem traced_append (before after : List μ) :
    (traced step start (before ++ after)).2 =
      (traced step start before).2 ++ saidAfter step start before after := by
  have begins : ∃ said, (traced step start (before ++ after)).2 =
      (traced step start before).2 ++ said := by
    induction after using List.reverseRecOn with
    | nil => exact ⟨[], by simp⟩
    | append_singleton after move ih =>
      obtain ⟨said, isSaid⟩ := ih
      refine ⟨said ++ (step (traced step start (before ++ after)).1 move).2, ?_⟩
      rw [← List.append_assoc, traced_concat, isSaid, List.append_assoc]
  obtain ⟨said, isSaid⟩ := begins
  rw [saidAfter, isSaid, List.drop_left]

theorem exists_of_mem_saidAfter {before after : List μ} {e : ε}
    (mem : e ∈ saidAfter step start before after) :
    ∃ between move rest, after = between ++ move :: rest ∧
      e ∈ (step (traced step start (before ++ between)).1 move).2 := by
  induction after using List.reverseRecOn with
  | nil =>
    rw [saidAfter, List.append_nil, List.drop_length] at mem
    cases mem
  | append_singleton after move ih =>
    have longer : saidAfter step start before (after ++ [move]) =
        saidAfter step start before after ++
          (step (traced step start (before ++ after)).1 move).2 := by
      refine List.append_cancel_left (?_ : (traced step start before).2 ++ _ =
        (traced step start before).2 ++ _)
      rw [← traced_append, ← List.append_assoc, traced_concat, traced_append, List.append_assoc]
    rw [longer] at mem
    rcases List.mem_append.mp mem with old | new
    · obtain ⟨between, other, rest, isSplit, mem⟩ := ih old
      exact ⟨between, other, rest ++ [move], by rw [isSplit]; simp, mem⟩
    · exact ⟨after, move, [], rfl, new⟩

theorem mem_traced_append {before : List μ} {e : ε} (mem : e ∈ (traced step start before).2)
    (after : List μ) : e ∈ (traced step start (before ++ after)).2 := by
  rw [traced_append]
  exact List.mem_append_left _ mem

theorem traced_induction {P : σ → List ε → Prop} (init : P start [])
    (keeps : ∀ s said move, P s said → P (step s move).1 (said ++ (step s move).2))
    (moves : List μ) : P (traced step start moves).1 (traced step start moves).2 := by
  induction moves using List.reverseRecOn with
  | nil => exact init
  | append_singleton moves move ih =>
    rw [traced_concat]
    exact keeps _ _ move ih

theorem traced_mono {f : σ → Nat} {P : σ → List ε → Prop}
    (holds : ∀ moves, P (traced step start moves).1 (traced step start moves).2)
    (rises : ∀ s said move, P s said → f s ≤ f (step s move).1) (before after : List μ) :
    f (traced step start before).1 ≤ f (traced step start (before ++ after)).1 := by
  induction after using List.reverseRecOn with
  | nil =>
    exact Nat.le_of_eq (by rw [List.append_nil])
  | append_singleton after move ih =>
    rw [← List.append_assoc, traced_concat]
    exact Nat.le_trans ih (rises _ _ move (holds _))

end EdvrPatch.Lib
