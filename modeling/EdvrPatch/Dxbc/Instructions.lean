import EdvrPatch.Dxbc.EngineVelocity
import EdvrPatch.Dxbc.SignatureRoundTrip

/-! Walks over a program as folds over its instructions. -/
namespace EdvrPatch.Dxbc

open Lib

def instructionsOf (t : List UInt32) : Result (List Instruction) :=
  walk (fun _ => t) (fun done _ ins => .ok (done ++ [ins])) t.length 2 []

/-- An instruction that is measured as a whole, whatever stands behind it. -/
structure Whole (ins : Instruction) : Prop where
  some_ : 0 < ins.length
  length : ∀ rest, instructionLength (ins ++ rest) 0 = .ok ins.length

theorem instructionLength_drop (tokens : List UInt32) (at_ : Nat) :
    instructionLength tokens at_ = instructionLength (tokens.drop at_) 0 := by
  unfold instructionLength
  rw [List.drop_zero, List.length_drop, Nat.sub_zero]

theorem namedLength_head {token : UInt32} {rest : List UInt32} {n : Nat}
    (named : namedLength token rest.head? = .ok n) (other : List UInt32) :
    namedLength token ((rest.take (n - 1) ++ other).head?) = .ok n := by
  unfold namedLength at named ⊢
  split at named
  · rename_i custom
    rw [if_pos custom]
    cases rest with
    | nil => cases named
    | cons next rest =>
      dsimp only [List.head?_cons] at named
      split at named
      · cases named
      split at named
      · cases named
      rename_i kind long
      cases named
      have two : 2 ≤ next.toNat := UInt32.not_lt.mp (not_or.mp long).1
      obtain ⟨m, size⟩ : ∃ m, next.toNat - 1 = m + 1 := ⟨next.toNat - 2, by omega⟩
      rw [size, List.take_succ_cons]
      dsimp only [List.cons_append, List.head?_cons]
      rw [if_neg kind, if_neg long]
  · rename_i plain
    rw [if_neg plain]
    exact named

theorem whole_of_length {tokens : List UInt32} {n : Nat}
    (measured : instructionLength tokens 0 = .ok n) :
    n ≤ tokens.length ∧ Whole (tokens.take n) := by
  cases tokens with
  | nil => cases measured
  | cons token rest =>
    obtain ⟨length, named, checked⟩ := bind_eq_ok.mp measured
    split at checked
    · cases checked
    rename_i fits
    cases checked
    push Not at fits
    obtain ⟨some_, enough⟩ := fits
    have size : ((token :: rest).take n).length = n := by
      rw [List.length_take]
      omega
    refine ⟨enough, by omega, fun other => ?_⟩
    obtain ⟨m, rfl⟩ : ∃ m, n = m + 1 := ⟨n - 1, by omega⟩
    have again := namedLength_head named other
    unfold instructionLength
    rw [List.drop_zero, size, List.take_succ_cons, List.cons_append]
    refine bind_eq_ok.mpr ⟨_, again, if_neg ?_⟩
    rw [List.length_cons, List.length_append]
    rw [List.take_succ_cons, List.length_cons] at size
    omega

def placed : Nat → List Instruction → List (Nat × Instruction)
  | _, [] => []
  | at_, ins :: rest => (at_, ins) :: placed (at_ + ins.length) rest

theorem placed_map_snd (at_ : Nat) (l : List Instruction) : (placed at_ l).map Prod.snd = l := by
  induction l generalizing at_ with
  | nil => rfl
  | cons ins rest ih => rw [placed, List.map_cons, ih]

theorem le_of_mem_placed {at_ : Nat} {l : List Instruction} {p : Nat × Instruction}
    (member : p ∈ placed at_ l) : at_ ≤ p.1 := by
  induction l generalizing at_ with
  | nil => cases member
  | cons ins rest ih =>
    rcases List.mem_cons.mp member with rfl | later
    · exact Nat.le_refl _
    · exact Nat.le_trans (Nat.le_add_right ..) (ih later)

def foldPlaced {σ : Type} (step : σ → Nat → Instruction → Result σ) (at_ : Nat) (s : σ)
    (l : List Instruction) : Result σ :=
  (placed at_ l).foldlM (fun s p => step s p.1 p.2) s

variable {σ : Type}

theorem foldPlaced_cons (step : σ → Nat → Instruction → Result σ) (at_ : Nat) (s : σ)
    (ins : Instruction) (rest : List Instruction) :
    foldPlaced step at_ s (ins :: rest) =
      step s at_ ins >>= fun s => foldPlaced step (at_ + ins.length) s rest := rfl

theorem walk_splits {tokens : σ → List UInt32} {step : σ → Nat → Instruction → Result σ}
    (frame : ∀ s at_ ins s', ins <+: (tokens s).drop at_ → step s at_ ins = .ok s' → (tokens s').drop (at_ + ins.length) = (tokens s).drop (at_ + ins.length))
    {fuel at_ : Nat} {s s' : σ} (walked : walk tokens step fuel at_ s = .ok s')
    (enough : ((tokens s).drop at_).length ≤ fuel) :
    ∃ l, (tokens s).drop at_ = l.flatten ∧ (∀ ins ∈ l, Whole ins) ∧
      foldPlaced step at_ s l = .ok s' := by
  induction fuel generalizing at_ s with
  | zero =>
    cases walked
    exact ⟨[], List.eq_nil_of_length_eq_zero (by omega), nofun, rfl⟩
  | succ fuel ih =>
    unfold walk at walked
    split at walked
    · rename_i past
      cases walked
      exact ⟨[], List.drop_eq_nil_of_le past, nofun, rfl⟩
    obtain ⟨length, measured, walked⟩ := bind_eq_ok.mp walked
    obtain ⟨next, stepped, walked⟩ := bind_eq_ok.mp walked
    rw [instructionLength_drop] at measured
    obtain ⟨fits, whole⟩ := whole_of_length measured
    have size : (((tokens s).drop at_).take length).length = length := by
      rw [List.length_take]
      omega
    have kept := frame s at_ _ next (List.take_prefix _ _) stepped
    rw [size] at kept
    have positive := whole.some_
    obtain ⟨l, split, wholes, folded⟩ := ih walked (by
      rw [kept, List.length_drop]
      rw [List.length_drop] at enough fits
      omega)
    refine ⟨((tokens s).drop at_).take length :: l, ?_, ?_, ?_⟩
    · rw [List.flatten_cons, ← split, kept, ← List.drop_drop, List.take_append_drop]
    · intro ins member
      rcases List.mem_cons.mp member with rfl | later
      · exact whole
      · exact wholes ins later
    · rw [foldPlaced_cons, size]
      exact bind_eq_ok.mpr ⟨next, stepped, folded⟩

theorem walk_of_whole {step : σ → Nat → Instruction → Result σ} {t front : List UInt32}
    {l : List Instruction} (layout : t = front ++ l.flatten) (wholes : ∀ ins ∈ l, Whole ins)
    {fuel : Nat} (enough : l.flatten.length ≤ fuel) (s : σ) :
    walk (fun _ => t) step fuel front.length s = foldPlaced step front.length s l := by
  induction l generalizing front fuel s with
  | nil =>
    cases fuel with
    | zero => rfl
    | succ fuel =>
      unfold walk
      rw [if_pos (by rw [layout]; simp)]
      rfl
  | cons ins rest ih =>
    have whole := wholes ins List.mem_cons_self
    have positive := whole.some_
    rw [List.flatten_cons, List.length_append] at enough
    have here : t.drop front.length = ins ++ rest.flatten := by
      rw [layout, List.drop_left, List.flatten_cons]
    have size : t.length = front.length + (ins.length + rest.flatten.length) := by
      rw [layout, List.length_append, List.flatten_cons, List.length_append]
    cases fuel with
    | zero => omega
    | succ fuel =>
      unfold walk
      rw [if_neg (by omega), instructionLength_drop, here, whole.length, foldPlaced_cons]
      change (step s front.length ((ins ++ rest.flatten).take ins.length) >>= fun s =>
        walk (fun _ => t) step fuel (front.length + ins.length) s) = _
      rw [List.take_left]
      congr 1
      funext next
      have later := @ih (front ++ ins)
        (by rw [layout, List.flatten_cons, List.append_assoc])
        (fun other member => wholes other (List.mem_cons_of_mem ins member)) fuel (by omega) next
      rw [List.length_append] at later
      exact later

theorem instructionsOf_of_whole {t : List UInt32} {l : List Instruction} {a b : UInt32}
    (layout : t = a :: b :: l.flatten) (wholes : ∀ ins ∈ l, Whole ins) :
    instructionsOf t = .ok l := by
  have collects (at_ : Nat) (done l : List Instruction) :
      foldPlaced (fun done _ ins => (.ok (done ++ [ins]) : Result (List Instruction))) at_ done l =
        .ok (done ++ l) := by
    induction l generalizing at_ done with
    | nil => simp [foldPlaced, placed, pure, Except.pure]
    | cons ins rest ih =>
      rw [foldPlaced_cons]
      refine bind_eq_ok.mpr ⟨_, rfl, ?_⟩
      rw [ih, List.append_assoc]
      rfl
  have walked := @walk_of_whole _ (fun done _ ins =>
    (.ok (done ++ [ins]) : Result (List Instruction))) _ [a, b] _ layout wholes
    t.length (by rw [layout, List.length_cons, List.length_cons]; omega) []
  rw [collects] at walked
  exact walked

end EdvrPatch.Dxbc
