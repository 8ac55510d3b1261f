import Mathlib.LinearAlgebra.Matrix.Determinant.Basic
import Mathlib.Tactic.FieldSimp
import Mathlib.Tactic.LinearCombination
import NanoVNA.LeastSquares

namespace NanoVNA.Regression

open Matrix NanoVNA.LeastSquares

/-! ### The sums of the regressions -/

section Code

variable {K : Type} [Field K] (N : ℕ) (getx gety : ℕ → K)

structure Sums (K : Type) where
  x : K
  y : K
  xx : K
  xy : K
  xxy : K
  xxx : K
  xxxx : K

def Sums.add (s : Sums K) (x y : K) : Sums K :=
  let xx := x * x
  let xy := x * y
  { x := s.x + x, y := s.y + y, xx := s.xx + xx, xy := s.xy + xy, xxx := s.xxx + x * xx,
    xxy := s.xxy + x * xy, xxxx := s.xxxx + xx * xx }

/-- The loop over the data. The linear regression has the first four of the sums. -/
def sums : Sums K :=
  (List.range N).foldl (fun s i => s.add (getx i) (gety i)) ⟨0, 0, 0, 0, 0, 0, 0⟩

/-- The sums are replaced by those about the means, each one while the others are still whole. -/
def parabolicRegression : Fin 3 → K :=
  let s := sums N getx gety
  let xm := s.x / N
  let ym := s.y / N
  let xxm := s.xx / N
  let xxxx := s.xxxx - s.xx * xxm
  let xxx := s.xxx - s.xx * xm
  let xxy := s.xxy - s.xx * ym
  let xx := s.xx - s.x * xm
  let xy := s.xy - s.x * ym
  let c := (xx * xxy - xxx * xy) / (xxxx * xx - xxx * xxx)
  let b := (xxxx * xy - xxx * xxy) / (xxxx * xx - xxx * xxx)
  let a := ym - b * xm - c * xxm
  ![a, b, c]

def linearRegression : Fin 2 → K :=
  let s := sums N getx gety
  let xm := s.x / N
  let ym := s.y / N
  let b := (s.xy - s.x * ym) / (s.xx - s.x * xm)
  let a := ym - b * xm
  ![a, b]

theorem sums_eq : sums N getx gety =
    { x := ∑ i ∈ Finset.range N, getx i, y := ∑ i ∈ Finset.range N, gety i,
      xx := ∑ i ∈ Finset.range N, getx i ^ 2, xy := ∑ i ∈ Finset.range N, getx i * gety i,
      xxy := ∑ i ∈ Finset.range N, getx i ^ 2 * gety i, xxx := ∑ i ∈ Finset.range N, getx i ^ 3,
      xxxx := ∑ i ∈ Finset.range N, getx i ^ 4 } := by
  induction N with
  | zero => simp [sums]
  | succ N ih =>
    rw [sums, List.range_succ, List.foldl_append, ← sums, ih]
    simp only [List.foldl_cons, List.foldl_nil, Sums.add, Finset.sum_range_succ, Sums.mk.injEq]
    refine ⟨trivial, trivial, ?_, trivial, ?_, ?_, ?_⟩ <;> ring

end Code

section Equations

variable {K : Type} [Field K] {N : ℕ} {getx gety : ℕ → K}

theorem det_two : (normalMatrix 2 N getx).det =
    N * (∑ i ∈ Finset.range N, getx i ^ 2) -
      (∑ i ∈ Finset.range N, getx i) * ∑ i ∈ Finset.range N, getx i := by
  simp [Matrix.det_fin_two, normalMatrix]

theorem det_three : (normalMatrix 3 N getx).det =
    N * ((∑ i ∈ Finset.range N, getx i ^ 2) * (∑ i ∈ Finset.range N, getx i ^ 4) -
        (∑ i ∈ Finset.range N, getx i ^ 3) * ∑ i ∈ Finset.range N, getx i ^ 3) -
      (∑ i ∈ Finset.range N, getx i) *
        ((∑ i ∈ Finset.range N, getx i) * (∑ i ∈ Finset.range N, getx i ^ 4) -
          (∑ i ∈ Finset.range N, getx i ^ 3) * ∑ i ∈ Finset.range N, getx i ^ 2) +
      (∑ i ∈ Finset.range N, getx i ^ 2) *
        ((∑ i ∈ Finset.range N, getx i) * (∑ i ∈ Finset.range N, getx i ^ 3) -
          (∑ i ∈ Finset.range N, getx i ^ 2) * ∑ i ∈ Finset.range N, getx i ^ 2) := by
  simp [Matrix.det_fin_three, normalMatrix]
  ring

theorem normal_two {a b : K} : SolvesNormal 2 N getx gety ![a, b] ↔
    N * a + (∑ i ∈ Finset.range N, getx i) * b = ∑ i ∈ Finset.range N, gety i ∧
      (∑ i ∈ Finset.range N, getx i) * a + (∑ i ∈ Finset.range N, getx i ^ 2) * b =
        ∑ i ∈ Finset.range N, getx i * gety i := by
  rw [SolvesNormal, funext_iff]
  simp [Fin.forall_fin_two, normalMatrix, moments, Matrix.mulVec, dotProduct, Fin.sum_univ_two]

theorem normal_three {a b c : K} : SolvesNormal 3 N getx gety ![a, b, c] ↔
    N * a + (∑ i ∈ Finset.range N, getx i) * b + (∑ i ∈ Finset.range N, getx i ^ 2) * c =
        ∑ i ∈ Finset.range N, gety i ∧
      (∑ i ∈ Finset.range N, getx i) * a + (∑ i ∈ Finset.range N, getx i ^ 2) * b +
          (∑ i ∈ Finset.range N, getx i ^ 3) * c = ∑ i ∈ Finset.range N, getx i * gety i ∧
      (∑ i ∈ Finset.range N, getx i ^ 2) * a + (∑ i ∈ Finset.range N, getx i ^ 3) * b +
          (∑ i ∈ Finset.range N, getx i ^ 4) * c = ∑ i ∈ Finset.range N, getx i ^ 2 * gety i := by
  rw [SolvesNormal, funext_iff]
  simp [Fin.forall_fin_succ, normalMatrix, moments, Matrix.mulVec, dotProduct, Fin.sum_univ_three]

theorem cramer {x2 x3 x4 y1 y2 : K} (hD : x4 * x2 - x3 * x3 ≠ 0) :
    x2 * ((x4 * y1 - x3 * y2) / (x4 * x2 - x3 * x3)) +
        x3 * ((x2 * y2 - x3 * y1) / (x4 * x2 - x3 * x3)) = y1 ∧
      x3 * ((x4 * y1 - x3 * y2) / (x4 * x2 - x3 * x3)) +
        x4 * ((x2 * y2 - x3 * y1) / (x4 * x2 - x3 * x3)) = y2 := by
  constructor
  · rw [← mul_div_assoc, ← mul_div_assoc, ← add_div, div_eq_iff hD]
    ring
  · rw [← mul_div_assoc, ← mul_div_assoc, ← add_div, div_eq_iff hD]
    ring

variable [CharZero K]

theorem count_ne_zero {d : ℕ} [NeZero d] (hdet : (normalMatrix d N getx).det ≠ 0) :
    (N : K) ≠ 0 := by
  rw [Nat.cast_ne_zero]
  rintro rfl
  rw [normalMatrix_empty, Matrix.det_zero] at hdet
  exact hdet rfl

theorem linearRegression_normal (gety : ℕ → K) (hdet : (normalMatrix 2 N getx).det ≠ 0) :
    SolvesNormal 2 N getx gety (linearRegression N getx gety) := by
  have hN := count_ne_zero hdet
  rw [det_two] at hdet
  rw [linearRegression, sums_eq, normal_two]
  dsimp only
  generalize (∑ i ∈ Finset.range N, getx i) = x at *
  generalize (∑ i ∈ Finset.range N, gety i) = y at *
  generalize (∑ i ∈ Finset.range N, getx i ^ 2) = xx at *
  generalize (∑ i ∈ Finset.range N, getx i * gety i) = xy at *
  have hD : xx - x * (x / N) ≠ 0 := by
    intro h
    apply hdet
    field_simp at h
    linear_combination h
  obtain ⟨b, hb⟩ : ∃ b, b = (xy - x * (y / N)) / (xx - x * (x / N)) := ⟨_, rfl⟩
  have hcramer : b * (xx - x * (x / N)) = xy - x * (y / N) := by
    rw [hb, div_mul_cancel₀ _ hD]
  rw [← hb]
  constructor
  · field_simp
    ring
  · linear_combination hcramer

theorem parabolicRegression_normal (gety : ℕ → K) (hdet : (normalMatrix 3 N getx).det ≠ 0) :
    SolvesNormal 3 N getx gety (parabolicRegression N getx gety) := by
  have hN := count_ne_zero hdet
  rw [det_three] at hdet
  rw [parabolicRegression, sums_eq, normal_three]
  dsimp only
  generalize (∑ i ∈ Finset.range N, getx i) = x at *
  generalize (∑ i ∈ Finset.range N, gety i) = y at *
  generalize (∑ i ∈ Finset.range N, getx i ^ 2) = xx at *
  generalize (∑ i ∈ Finset.range N, getx i ^ 3) = xxx at *
  generalize (∑ i ∈ Finset.range N, getx i ^ 4) = xxxx at *
  generalize (∑ i ∈ Finset.range N, getx i * gety i) = xy at *
  generalize (∑ i ∈ Finset.range N, getx i ^ 2 * gety i) = xxy at *
  have hD : (xxxx - xx * (xx / N)) * (xx - x * (x / N)) -
      (xxx - xx * (x / N)) * (xxx - xx * (x / N)) ≠ 0 := by
    intro h
    apply hdet
    apply mul_left_cancel₀ hN
    field_simp at h
    linear_combination h
  obtain ⟨hfirst, hsecond⟩ :=
    @cramer K _ _ _ _ (xy - x * (y / (N : K))) (xxy - xx * (y / (N : K))) hD
  refine ⟨?_, ?_, ?_⟩
  · field_simp
    ring
  · linear_combination hfirst
  · linear_combination hsecond

end Equations

/-- The coefficients satisfy the normal equations, and are those of what the data lie on. -/
theorem regressions_recover {K : Type} [Field K] [LinearOrder K] [IsStrictOrderedRing K]
    (N : ℕ) (getx gety : ℕ → K) :
    ((normalMatrix 2 N getx).det ≠ 0 →
      SolvesNormal 2 N getx gety (linearRegression N getx gety) ∧
        ∀ c, Fits 2 N getx gety c → linearRegression N getx gety = c) ∧
    ((normalMatrix 3 N getx).det ≠ 0 →
      SolvesNormal 3 N getx gety (parabolicRegression N getx gety) ∧
        ∀ c, Fits 3 N getx gety c → parabolicRegression N getx gety = c) := by
  constructor
  · intro hdet
    have hnormal := linearRegression_normal gety hdet
    exact ⟨hnormal, fun c hfits => hnormal.recovers hdet hfits⟩
  · intro hdet
    have hnormal := parabolicRegression_normal gety hdet
    exact ⟨hnormal, fun c hfits => hnormal.recovers hdet hfits⟩

/-- The data 1 + 2 i + i ^ 2 / 2 at three points. -/
theorem regressions_recover_quadratic :
    (normalMatrix 3 3 fun i => (i : ℚ)).det ≠ 0 ∧
      parabolicRegression 3 (fun i => (i : ℚ)) (fun i => 1 + 2 * i + i ^ 2 / 2) =
        ![1, 2, 1 / 2] := by
  have hdet : (normalMatrix 3 3 fun i => (i : ℚ)).det ≠ 0 := by
    rw [det_three]
    norm_num [Finset.sum_range_succ]
  refine ⟨hdet, ((regressions_recover 3 _ _).2 hdet).2 _ fun k _ => ?_⟩
  simp [Fin.sum_univ_three]
  ring

end NanoVNA.Regression
