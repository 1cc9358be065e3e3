import Mathlib

/-! Open addressing. A key is looked for along a row of slots, up to the first hole. A
table is tidy when every key that it holds is found along the row of that key. -/
namespace EdvrPatch.Lib

variable {ι κ : Type} [DecidableEq ι] [DecidableEq κ]

def scan (keys : ι → κ) (hole k : κ) : List ι → Option ι
  | [] => none
  | i :: row =>
    if keys i = k then some i
    else if keys i = hole then none
    else scan keys hole k row

/-- The slots that a search for a key comes by, the hole it stops at included. -/
def passed (keys : ι → κ) (hole k : κ) : List ι → List ι
  | [] => []
  | i :: row =>
    if keys i = k then []
    else if keys i = hole then [i]
    else i :: passed keys hole k row

def Tidy (keys : ι → κ) (hole : κ) (row : κ → List ι) : Prop :=
  ∀ i, keys i ≠ hole → scan keys hole (keys i) (row (keys i)) = some i

section

variable {keys : ι → κ} {hole k m : κ} {i j : ι} {w : List ι}

omit [DecidableEq ι] in
theorem key_of_scan (found : scan keys hole k w = some i) : keys i = k := by
  induction w with
  | nil => cases found
  | cons a w ih =>
    unfold scan at found
    split at found
    · rename_i here
      cases found
      exact here
    split at found
    · cases found
    · exact ih found

omit [DecidableEq ι] in
theorem mem_of_passed (inside : i ∈ passed keys hole k w) : i ∈ w := by
  induction w with
  | nil => cases inside
  | cons a w ih =>
    unfold passed at inside
    split at inside
    · cases inside
    split at inside
    · rw [List.mem_singleton.mp inside]
      exact List.mem_cons_self
    · exact List.mem_cons.mpr ((List.mem_cons.mp inside).imp id ih)

omit [DecidableEq ι] in
theorem passed_of_full (missing : scan keys hole k w = none) (full : ∀ i ∈ w, keys i ≠ hole) :
    passed keys hole k w = w := by
  induction w with
  | nil => rfl
  | cons a w ih =>
    have solid := full a List.mem_cons_self
    unfold scan at missing
    unfold passed
    rw [if_neg solid] at missing ⊢
    split at missing
    · cases missing
    rename_i other
    rw [if_neg other, ih missing fun i later => full i (List.mem_cons_of_mem a later)]

omit [DecidableEq ι] in
theorem hole_mem_passed (missing : scan keys hole k w = none)
    (found : w.find? (fun i => decide (keys i = hole)) = some i) : i ∈ passed keys hole k w := by
  induction w with
  | nil => cases found
  | cons a w ih =>
    unfold scan at missing
    unfold passed
    split at missing
    · cases missing
    rename_i other
    rw [if_neg other]
    by_cases here : keys a = hole
    · rw [List.find?_cons_of_pos (by simpa using here)] at found
      cases found
      rw [if_pos here]
      exact List.mem_singleton_self i
    · rw [List.find?_cons_of_neg (by simpa using here)] at found
      rw [if_neg here] at missing ⊢
      exact List.mem_cons_of_mem a (ih missing found)

theorem scan_update_of_ne (found : scan keys hole m w = some j) (apart : i ≠ j) (other : k ≠ m)
    (solid : k ≠ hole) : scan (Function.update keys i k) hole m w = some j := by
  induction w with
  | nil => cases found
  | cons a w ih =>
    unfold scan at found ⊢
    by_cases here : a = i
    · subst here
      rw [Function.update_self, if_neg other, if_neg solid]
      split at found
      · cases found
        exact absurd rfl apart
      split at found
      · cases found
      · exact ih found
    · rw [Function.update_of_ne here]
      split at found
      · rename_i key
        rw [if_pos key]
        exact found
      split at found
      · cases found
      · rename_i key solid_
        rw [if_neg key, if_neg solid_]
        exact ih found

theorem scan_update_passed (missing : scan keys hole k w = none)
    (inside : i ∈ passed keys hole k w) : scan (Function.update keys i k) hole k w = some i := by
  induction w with
  | nil => cases inside
  | cons a w ih =>
    unfold scan at missing ⊢
    unfold passed at inside
    by_cases here : a = i
    · subst here
      rw [Function.update_self, if_pos rfl]
    · rw [Function.update_of_ne here]
      split at missing
      · cases missing
      rename_i key
      rw [if_neg key] at inside ⊢
      split at inside
      · exact absurd (List.mem_singleton.mp inside).symm here
      · rename_i solid
        rw [if_neg solid] at missing ⊢
        exact ih missing ((List.mem_cons.mp inside).resolve_left fun same => here same.symm)

variable {row : κ → List ι} (tidy : Tidy keys hole row)

include tidy

omit [DecidableEq ι] in
theorem Tidy.injective (solid : keys i ≠ hole) (same : keys i = keys j) : i = j := by
  have first := tidy i solid
  have second := tidy j (by rw [← same]; exact solid)
  rw [same, second] at first
  exact Option.some.inj first.symm

omit [DecidableEq ι] in
theorem Tidy.absent (solid : k ≠ hole) (missing : scan keys hole k (row k) = none) :
    keys i ≠ k := by
  rintro rfl
  rw [tidy i solid] at missing
  cases missing

theorem Tidy.insert (solid : k ≠ hole) (missing : scan keys hole k (row k) = none)
    (inside : i ∈ passed keys hole k (row k)) : Tidy (Function.update keys i k) hole row := by
  intro j
  by_cases here : j = i
  · subst here
    rw [Function.update_self]
    exact fun _ => scan_update_passed missing inside
  · rw [Function.update_of_ne here]
    intro held
    exact scan_update_of_ne (tidy j held) (fun same => here same.symm)
      (fun same => tidy.absent solid missing same.symm) solid

end

section

variable [Fintype ι]

def used (keys : ι → κ) (hole : κ) : Nat :=
  (Finset.univ.filter fun i => keys i ≠ hole).card

variable {keys : ι → κ} {hole k : κ} {i : ι}

theorem used_update_hole (free : keys i = hole) (solid : k ≠ hole) :
    used (Function.update keys i k) hole = used keys hole + 1 := by
  have grown : (Finset.univ.filter fun j => Function.update keys i k j ≠ hole) =
      insert i (Finset.univ.filter fun j => keys j ≠ hole) := by
    ext j
    by_cases here : j = i
    · simp [here, solid]
    · simp [here]
  unfold used
  rw [grown, Finset.card_insert_of_notMem]
  simp [free]

theorem used_update_solid (held : keys i ≠ hole) (solid : k ≠ hole) :
    used (Function.update keys i k) hole = used keys hole := by
  have same : (Finset.univ.filter fun j => Function.update keys i k j ≠ hole) =
      Finset.univ.filter fun j => keys j ≠ hole := by
    ext j
    by_cases here : j = i
    · simp [here, solid, held]
    · simp [here]
  unfold used
  rw [same]

omit [DecidableEq ι] in
theorem used_le (keys : ι → κ) (hole : κ) : used keys hole ≤ Fintype.card ι :=
  Finset.card_le_univ _

end

end EdvrPatch.Lib
