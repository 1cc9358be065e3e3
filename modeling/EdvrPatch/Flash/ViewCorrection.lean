import Mathlib

/-! The corrections of `transition_flash_eye_base_core.h`, in exact arithmetic. A base moves points
as row vectors, and its translation is its last row. A view group is three rows of a view, with the
translation folded into the last lane of each. -/
namespace EdvrPatch.Flash

variable {K : Type*} [Field K]

def lane (row col : Nat) : Fin 16 := Fin.ofNat 16 (4 * row + col)

def patchEyeOrigin (B : Fin 16 → K) (P : Fin 3 → K) : Fin 3 → K := fun k =>
  P 0 * B (lane 0 k) + P 1 * B (lane 1 k) + P 2 * B (lane 2 k) + B (lane 3 k)

def premul4x4 (B M : Fin 16 → K) : Fin 16 → K := fun i =>
  let row := i.val / 4
  let col := i.val % 4
  0 + B (lane row 0) * M (lane 0 col) + B (lane row 1) * M (lane 1 col) + B (lane row 2) * M (lane 2 col) +
    B (lane row 3) * M (lane 3 col)

def det3x3 (m : Fin 16 → K) : K :=
  m 0 * (m 5 * m 10 - m 6 * m 9) + m 4 * (m 2 * m 9 - m 1 * m 10) + m 8 * (m 1 * m 6 - m 2 * m 5)

def affineInverse4x4 (m : Fin 16 → K) : Fin 16 → K :=
  let (a, b, c) := (m 0, m 1, m 2)
  let (d, e, f) := (m 4, m 5, m 6)
  let (g, h, i) := (m 8, m 9, m 10)
  let invDet := 1 / det3x3 m
  let r0 := (e * i - f * h) * invDet
  let r1 := (c * h - b * i) * invDet
  let r2 := (b * f - c * e) * invDet
  let r4 := (f * g - d * i) * invDet
  let r5 := (a * i - c * g) * invDet
  let r6 := (c * d - a * f) * invDet
  let r8 := (d * h - e * g) * invDet
  let r9 := (b * g - a * h) * invDet
  let r10 := (a * e - b * d) * invDet
  ![r0, r1, r2, 0, r4, r5, r6, 0, r8, r9, r10, 0,
    -(m 12 * r0 + m 13 * r4 + m 14 * r8), -(m 12 * r1 + m 13 * r5 + m 14 * r9),
    -(m 12 * r2 + m 13 * r6 + m 14 * r10), 1]

def viewPoint (m : Fin 16 → K) (v : Fin 3 → K) : Fin 3 → K := fun k =>
  m (lane k 3) + v 0 * m (lane 0 k) + v 1 * m (lane 1 k) + v 2 * m (lane 2 k)

def viewOriginMatch (sqrt : K → K) (m : Fin 16 → K) (origin : Fin 3 → K) : K :=
  let e := viewPoint m origin
  sqrt (0 + e 0 * e 0 + e 1 * e 1 + e 2 * e 2)

def viewImpliedEye (m : Fin 16 → K) : Fin 3 → K := fun k =>
  -(m 3 * m (lane k 0) + m 7 * m (lane k 1) + m 11 * m (lane k 2))

theorem patchEyeOrigin_eq (B : Fin 16 → K) (P : Fin 3 → K) : patchEyeOrigin B P =
    ![P 0 * B 0 + P 1 * B 4 + P 2 * B 8 + B 12, P 0 * B 1 + P 1 * B 5 + P 2 * B 9 + B 13,
      P 0 * B 2 + P 1 * B 6 + P 2 * B 10 + B 14] := by
  ext k
  fin_cases k
  · rfl
  · rfl
  · rfl

theorem viewPoint_eq (m : Fin 16 → K) (v : Fin 3 → K) : viewPoint m v =
    ![m 3 + v 0 * m 0 + v 1 * m 4 + v 2 * m 8, m 7 + v 0 * m 1 + v 1 * m 5 + v 2 * m 9,
      m 11 + v 0 * m 2 + v 1 * m 6 + v 2 * m 10] := by
  ext k
  fin_cases k
  · rfl
  · rfl
  · rfl

theorem premul4x4_eq (b m : Fin 16 → K) : premul4x4 b m =
    ![0 + b 0 * m 0 + b 1 * m 4 + b 2 * m 8 + b 3 * m 12, 0 + b 0 * m 1 + b 1 * m 5 + b 2 * m 9 + b 3 * m 13,
      0 + b 0 * m 2 + b 1 * m 6 + b 2 * m 10 + b 3 * m 14, 0 + b 0 * m 3 + b 1 * m 7 + b 2 * m 11 + b 3 * m 15,
      0 + b 4 * m 0 + b 5 * m 4 + b 6 * m 8 + b 7 * m 12, 0 + b 4 * m 1 + b 5 * m 5 + b 6 * m 9 + b 7 * m 13,
      0 + b 4 * m 2 + b 5 * m 6 + b 6 * m 10 + b 7 * m 14, 0 + b 4 * m 3 + b 5 * m 7 + b 6 * m 11 + b 7 * m 15,
      0 + b 8 * m 0 + b 9 * m 4 + b 10 * m 8 + b 11 * m 12, 0 + b 8 * m 1 + b 9 * m 5 + b 10 * m 9 + b 11 * m 13,
      0 + b 8 * m 2 + b 9 * m 6 + b 10 * m 10 + b 11 * m 14, 0 + b 8 * m 3 + b 9 * m 7 + b 10 * m 11 + b 11 * m 15,
      0 + b 12 * m 0 + b 13 * m 4 + b 14 * m 8 + b 15 * m 12, 0 + b 12 * m 1 + b 13 * m 5 + b 14 * m 9 + b 15 * m 13,
      0 + b 12 * m 2 + b 13 * m 6 + b 14 * m 10 + b 15 * m 14, 0 + b 12 * m 3 + b 13 * m 7 + b 14 * m 11 + b 15 * m 15] := by
  ext i
  fin_cases i
  all_goals rfl

theorem affineInverse_patch {B : Fin 16 → K} (invertible : det3x3 B ≠ 0) (v : Fin 3 → K) :
    patchEyeOrigin (affineInverse4x4 B) (patchEyeOrigin B v) = v := by
  have cancels : det3x3 B * (1 / det3x3 B) = 1 := mul_one_div_cancel invertible
  simp only [patchEyeOrigin_eq, affineInverse4x4]
  generalize 1 / det3x3 B = invDet at cancels
  unfold det3x3 at cancels
  ext k
  fin_cases k
  all_goals simp only [Matrix.cons_val, Fin.isValue, Fin.zero_eta, Fin.mk_one, Fin.reduceFinMk]
  · linear_combination v 0 * cancels
  · linear_combination v 1 * cancels
  · linear_combination v 2 * cancels

theorem patch_affineInverse {B : Fin 16 → K} (invertible : det3x3 B ≠ 0) (v : Fin 3 → K) :
    patchEyeOrigin B (patchEyeOrigin (affineInverse4x4 B) v) = v := by
  have cancels : det3x3 B * (1 / det3x3 B) = 1 := mul_one_div_cancel invertible
  simp only [patchEyeOrigin_eq, affineInverse4x4]
  generalize 1 / det3x3 B = invDet at cancels
  unfold det3x3 at cancels
  ext k
  fin_cases k
  all_goals simp only [Matrix.cons_val, Fin.isValue, Fin.zero_eta, Fin.mk_one, Fin.reduceFinMk]
  · linear_combination (v 0 - B 12) * cancels
  · linear_combination (v 1 - B 13) * cancels
  · linear_combination (v 2 - B 14) * cancels

section

variable [LinearOrder K]

def isOrtho3x3 (m : Fin 16 → K) (tol : K) : Bool :=
  ((List.range 3).all fun c =>
    let n := m (lane 0 c) * m (lane 0 c) + m (lane 1 c) * m (lane 1 c) + m (lane 2 c) * m (lane 2 c)
    !(decide (n < (1 - tol) * (1 - tol)) || decide ((1 + tol) * (1 + tol) < n))) &&
  ((List.range 3).all fun a => (List.range 3).all fun b => decide (b ≤ a) ||
    let d := m (lane 0 a) * m (lane 0 b) + m (lane 1 a) * m (lane 1 b) + m (lane 2 a) * m (lane 2 b)
    !(decide (d < -tol) || decide (tol < d)))

def correctViewColumnMajor (B stored out : Fin 16 → K) (orthoTol : K) : Option (Fin 16 → K) :=
  let v4 := ![stored 0, stored 1, stored 2, 0, stored 4, stored 5, stored 6, 0, stored 8, stored 9, stored 10, 0,
    stored 3, stored 7, stored 11, 1]
  let vCorr := premul4x4 (affineInverse4x4 B) v4
  if !isOrtho3x3 vCorr orthoTol then none
  else some ![vCorr 0, vCorr 1, vCorr 2, vCorr 12, vCorr 4, vCorr 5, vCorr 6, vCorr 13,
    vCorr 8, vCorr 9, vCorr 10, vCorr 14, out 12, out 13, out 14, out 15]

theorem viewPoint_corrected {B stored out corrected : Fin 16 → K} {orthoTol : K}
    (accepts : correctViewColumnMajor B stored out orthoTol = some corrected) (v : Fin 3 → K) :
    viewPoint corrected v = viewPoint stored (patchEyeOrigin (affineInverse4x4 B) v) := by
  unfold correctViewColumnMajor at accepts
  dsimp only at accepts
  split at accepts
  · cases accepts
  obtain rfl := Option.some.inj accepts
  have lanes : (affineInverse4x4 B) 3 = 0 ∧ (affineInverse4x4 B) 7 = 0 ∧ (affineInverse4x4 B) 11 = 0 ∧
      (affineInverse4x4 B) 15 = 1 := ⟨rfl, rfl, rfl, rfl⟩
  generalize affineInverse4x4 B = inverse at lanes
  rw [viewPoint_eq, viewPoint_eq, patchEyeOrigin_eq, premul4x4_eq]
  ext k
  fin_cases k
  all_goals
    simp only [lanes, Matrix.cons_val, Fin.isValue, Fin.zero_eta, Fin.mk_one, Fin.reduceFinMk]
    ring

def basis (m : Fin 16 → K) : Matrix (Fin 3) (Fin 3) K := .of fun row col => m (lane row col)

theorem isOrtho3x3_zero {m : Fin 16 → K} (ortho : isOrtho3x3 m 0 = true) : (basis m).transpose * basis m = 1 := by
  simp [isOrtho3x3, List.range_succ] at ortho
  obtain ⟨⟨unit0, unit1, unit2⟩, ⟨apart01, apart02⟩, apart12⟩ := ortho
  have column : ∀ a b, ((basis m).transpose * basis m) a b =
      m (lane 0 a) * m (lane 0 b) + m (lane 1 a) * m (lane 1 b) + m (lane 2 a) * m (lane 2 b) := by
    simp [basis, Matrix.mul_apply, Fin.sum_univ_three]
  have swap : ∀ a b, ((basis m).transpose * basis m) a b = ((basis m).transpose * basis m) b a := by
    intro a b
    rw [column, column]
    ring
  ext a b
  fin_cases a
  · fin_cases b
    · exact (column 0 0).trans (le_antisymm unit0.2 unit0.1)
    · exact (column 0 1).trans (le_antisymm apart01.2 apart01.1)
    · exact (column 0 2).trans (le_antisymm apart02.2 apart02.1)
  · fin_cases b
    · exact (swap 1 0).trans ((column 0 1).trans (le_antisymm apart01.2 apart01.1))
    · exact (column 1 1).trans (le_antisymm unit1.2 unit1.1)
    · exact (column 1 2).trans (le_antisymm apart12.2 apart12.1)
  · fin_cases b
    · exact (swap 2 0).trans ((column 0 2).trans (le_antisymm apart02.2 apart02.1))
    · exact (swap 2 1).trans ((column 1 2).trans (le_antisymm apart12.2 apart12.1))
    · exact (column 2 2).trans (le_antisymm unit2.2 unit2.1)

theorem viewPoint_eq_zero {m : Fin 16 → K} (ortho : isOrtho3x3 m 0 = true) {v : Fin 3 → K} :
    viewPoint m v = 0 ↔ v = viewImpliedEye m := by
  have columns := isOrtho3x3_zero ortho
  have rows : basis m * (basis m).transpose = 1 := mul_eq_one_comm.mp columns
  have isPoint : viewPoint m v = (fun k : Fin 3 => m (lane k 3)) + Matrix.vecMul v (basis m) := by
    ext k
    simp [viewPoint, basis, Matrix.vecMul, dotProduct, Fin.sum_univ_three]
    ring
  have isEye : viewImpliedEye m = -Matrix.vecMul (fun k : Fin 3 => m (lane k 3)) (basis m).transpose := by
    ext k
    rw [show viewImpliedEye m k = -(m (lane 0 3) * m (lane k 0) + m (lane 1 3) * m (lane k 1) +
      m (lane 2 3) * m (lane k 2)) from rfl]
    simp [basis, Matrix.vecMul, dotProduct, Fin.sum_univ_three]
  rw [isPoint, isEye]
  constructor
  · intro origin
    have isOpposite := eq_neg_of_add_eq_zero_right origin
    calc v = Matrix.vecMul (Matrix.vecMul v (basis m)) (basis m).transpose := by
          rw [Matrix.vecMul_vecMul, rows, Matrix.vecMul_one]
      _ = -Matrix.vecMul (fun k : Fin 3 => m (lane k 3)) (basis m).transpose := by rw [isOpposite, Matrix.neg_vecMul]
  · rintro rfl
    rw [Matrix.neg_vecMul, Matrix.vecMul_vecMul, columns, Matrix.vecMul_one, add_neg_cancel]

theorem eye_and_view_corrections_agree (B stored : Fin 16 → K) (invertible : det3x3 B ≠ 0) :
    (∀ v, patchEyeOrigin (affineInverse4x4 B) (patchEyeOrigin B v) = v ∧
      patchEyeOrigin B (patchEyeOrigin (affineInverse4x4 B) v) = v) ∧
    ∀ out orthoTol corrected, correctViewColumnMajor B stored out orthoTol = some corrected →
      (∀ e, viewPoint corrected (patchEyeOrigin B e) = viewPoint stored e) ∧
      (∀ sqrt e, viewOriginMatch sqrt corrected (patchEyeOrigin B e) = viewOriginMatch sqrt stored e) ∧
      (isOrtho3x3 stored 0 = true → isOrtho3x3 corrected 0 = true →
        viewImpliedEye corrected = patchEyeOrigin B (viewImpliedEye stored)) := by
  refine ⟨fun v => ⟨affineInverse_patch invertible v, patch_affineInverse invertible v⟩, ?_⟩
  intro out orthoTol corrected accepts
  have maps : ∀ e, viewPoint corrected (patchEyeOrigin B e) = viewPoint stored e := by
    intro e
    rw [viewPoint_corrected accepts, affineInverse_patch invertible]
  refine ⟨maps, fun sqrt e => ?_, fun stands remains => ?_⟩
  · unfold viewOriginMatch
    rw [maps]
  · refine ((viewPoint_eq_zero remains).mp ?_).symm
    rw [maps]
    exact (viewPoint_eq_zero stands).mpr rfl

end

def turned : Fin 16 → ℚ := ![0, 1, 0, 0, -1, 0, 0, 0, 0, 0, 1, 0, 5, 6, 7, 1]

def stretched : Fin 16 → ℚ := ![1001 / 1000, 0, 0, 0, 0, 1, 0, 0, 0, 0, 1, 0, 0, 0, 0, 1]

def shifted : Fin 16 → ℚ := ![1, 0, 0, 2, 0, 1, 0, 0, 0, 0, 1, 0, 0, 0, 0, 1]

theorem corrections_agree_turned : ∃ corrected,
    correctViewColumnMajor turned shifted shifted (1 / 100) = some corrected ∧
      viewPoint corrected (patchEyeOrigin turned ![1, 2, 3]) = viewPoint shifted ![1, 2, 3] ∧
      viewImpliedEye corrected = patchEyeOrigin turned (viewImpliedEye shifted) := by
  obtain ⟨corrected, accepts⟩ : ∃ corrected,
      correctViewColumnMajor turned shifted shifted (1 / 100) = some corrected :=
    Option.isSome_iff_exists.mp (by decide +kernel)
  have exact_ : (correctViewColumnMajor turned shifted shifted (1 / 100)).all (isOrtho3x3 · 0) = true := by
    decide +kernel
  rw [accepts] at exact_
  obtain ⟨maps, -, eye⟩ := (eye_and_view_corrections_agree turned shifted (by decide +kernel)).2 _ _ _ accepts
  exact ⟨corrected, accepts, maps _, eye (by decide +kernel) exact_⟩

/-- The guard admits a little scale, which the implied eye takes for a turn. -/
theorem stretched_eye_is_off : ∃ corrected,
    correctViewColumnMajor stretched shifted shifted (1 / 100) = some corrected ∧
      det3x3 stretched ≠ 0 ∧ isOrtho3x3 shifted 0 = true ∧ isOrtho3x3 corrected (1 / 100) = true ∧
      viewImpliedEye corrected ≠ patchEyeOrigin stretched (viewImpliedEye shifted) := by
  refine ⟨![1000 / 1001, 0, 0, 2, 0, 1, 0, 0, 0, 0, 1, 0, 0, 0, 0, 1], ?_, ?_, ?_, ?_, ?_⟩
  all_goals decide +kernel

end EdvrPatch.Flash
