import Mathlib.LinearAlgebra.Matrix.ToLinearEquiv

namespace NanoVNA.LeastSquares

open Matrix

/-! ### The normal equations of a polynomial fit -/

variable {K : Type} [Field K] (d N : ℕ) (x y : ℕ → K)

def normalMatrix : Matrix (Fin d) (Fin d) K :=
  Matrix.of fun i j => ∑ k ∈ Finset.range N, x k ^ (i + j : ℕ)

def moments : Fin d → K := fun i => ∑ k ∈ Finset.range N, x k ^ (i : ℕ) * y k

def SolvesNormal (c : Fin d → K) : Prop := (normalMatrix d N x) *ᵥ c = moments d N x y

def Fits (c : Fin d → K) : Prop := ∀ k < N, y k = ∑ j : Fin d, c j * x k ^ (j : ℕ)

variable {d N x y}

theorem Fits.normal {c : Fin d → K} (h : Fits d N x y c) : SolvesNormal d N x y c := by
  funext i
  have hswap : (normalMatrix d N x *ᵥ c) i =
      ∑ k ∈ Finset.range N, ∑ j : Fin d, x k ^ (i + j : ℕ) * c j := by
    rw [Matrix.mulVec, dotProduct, Finset.sum_comm]
    simp only [normalMatrix, Matrix.of_apply, Finset.sum_mul]
  rw [hswap]
  apply Finset.sum_congr rfl
  intro k hk
  rw [h k (Finset.mem_range.mp hk), Finset.mul_sum]
  apply Finset.sum_congr rfl
  intro j _
  rw [pow_add]
  ring

theorem SolvesNormal.unique {c c' : Fin d → K} (hdet : (normalMatrix d N x).det ≠ 0)
    (h : SolvesNormal d N x y c) (h' : SolvesNormal d N x y c') : c = c' := by
  have hzero : normalMatrix d N x *ᵥ (c - c') = 0 := by
    rw [Matrix.mulVec_sub, h, h', sub_self]
  exact sub_eq_zero.mp (Matrix.eq_zero_of_mulVec_eq_zero hdet hzero)

theorem SolvesNormal.recovers {c c' : Fin d → K} (hdet : (normalMatrix d N x).det ≠ 0)
    (h : SolvesNormal d N x y c) (hfits : Fits d N x y c') : c = c' :=
  h.unique hdet hfits.normal

theorem normalMatrix_empty : normalMatrix d 0 x = 0 := by
  ext i j
  simp [normalMatrix]

end NanoVNA.LeastSquares
