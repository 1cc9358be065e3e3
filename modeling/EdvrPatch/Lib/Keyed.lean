import Mathlib

/-! Cells under keys, where a call acts on the cell of its own key. The calls on one key
are answered as if the calls on other keys had not been made. -/
namespace EdvrPatch.Lib

variable {κ ι ο σ : Type} (act : σ → ι → ο × σ)

def alone : σ → List ι → List ο
  | _, [] => []
  | s, c :: calls => (act s c).1 :: alone (act s c).2 calls

def aged : σ → List ι → σ
  | s, [] => s
  | s, c :: calls => aged (act s c).2 calls

@[simp] theorem aged_cons (s : σ) (c : ι) (calls : List ι) :
    aged act s (c :: calls) = aged act (act s c).2 calls := rfl

theorem aged_append (s : σ) (first rest : List ι) :
    aged act s (first ++ rest) = aged act (aged act s first) rest := by
  induction first generalizing s with
  | nil => rfl
  | cons c first ih => exact ih (act s c).2

variable [DecidableEq κ] (key : ι → κ)

def called (cells : κ → σ) (c : ι) : κ → σ :=
  Function.update cells (key c) (act (cells (key c)) c).2

def answers : (κ → σ) → List ι → List ο
  | _, [] => []
  | cells, c :: calls => (act (cells (key c)) c).1 :: answers (called act key cells c) calls

theorem foldl_called_apply (cells : κ → σ) (calls : List ι) (k : κ) :
    calls.foldl (called act key) cells k = aged act (cells k) (calls.filter (key · = k)) := by
  induction calls generalizing cells with
  | nil => rfl
  | cons c calls ih =>
    rw [List.foldl_cons, ih]
    by_cases own : key c = k
    · subst own
      rw [List.filter_cons_of_pos (by simp), aged_cons, called, Function.update_self]
    · rw [List.filter_cons_of_neg (by simpa using own), called,
        Function.update_of_ne (Ne.symm own)]

theorem answers_of_key (cells : κ → σ) (calls : List ι) (k : κ) :
    ((calls.zip (answers act key cells calls)).filter (key ·.1 = k)).map Prod.snd =
      alone act (cells k) (calls.filter (key · = k)) := by
  induction calls generalizing cells with
  | nil => rfl
  | cons c calls ih =>
    rw [answers, List.zip_cons_cons]
    by_cases own : key c = k
    · subst own
      rw [List.filter_cons_of_pos (by simp), List.filter_cons_of_pos (by simp), List.map_cons, ih,
        alone, called, Function.update_self]
    · rw [List.filter_cons_of_neg (by simpa using own), List.filter_cons_of_neg (by simpa using own),
        ih, called, Function.update_of_ne (Ne.symm own)]

theorem answers_of_all {calls : List ι} {k : κ} (all : ∀ c ∈ calls, key c = k) (cells : κ → σ) :
    answers act key cells calls = alone act (cells k) calls := by
  induction calls generalizing cells with
  | nil => rfl
  | cons c calls ih =>
    have own := all c List.mem_cons_self
    subst own
    rw [answers, alone, ih (fun d later => all d (List.mem_cons_of_mem c later)), called,
      Function.update_self]

end EdvrPatch.Lib
