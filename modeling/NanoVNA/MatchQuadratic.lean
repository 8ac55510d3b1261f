import Mathlib.Algebra.QuadraticDiscriminant
import Mathlib.Analysis.Real.Sqrt
import NanoVNA.Numerals

namespace NanoVNA.MatchQuadratic

/-! ### The solver for quadratic equations -/

section Code

variable {K : Type} [Field K] [LinearOrder K]

def vnaEpsilon : K := 1 / 10 ^ 9

def matchQuadraticEquation (sqrt : K → K) (a b c : K) : K × K :=
  let ax2 := 2 * a
  if |ax2| < vnaEpsilon then
    if vnaEpsilon < |b| then (-c / b, -c / b) else (0, 0)
  else
    let d := b * b - 2 * ax2 * c
    if d < 0 then (0, 0)
    else
      let sd := sqrt d
      ((-b + sd) / ax2, (-b - sd) / ax2)

end Code

section Roots

variable {a b c : ℝ}

theorem vnaEpsilon_pos : 0 < (vnaEpsilon : ℝ) := by
  rw [vnaEpsilon]
  norm_num

theorem ne_zero_of_epsilon_le (ha : vnaEpsilon ≤ |2 * a|) : a ≠ 0 := by
  rintro rfl
  rw [mul_zero, abs_zero] at ha
  exact ha.not_gt vnaEpsilon_pos

theorem solver_eq (ha : vnaEpsilon ≤ |2 * a|) (hd : 0 ≤ discrim a b c) :
    matchQuadraticEquation Real.sqrt a b c =
      ((-b + √(discrim a b c)) / (2 * a), (-b - √(discrim a b c)) / (2 * a)) := by
  have hdisc : b * b - 2 * (2 * a) * c = discrim a b c := by
    rw [discrim]
    ring
  simp only [matchQuadraticEquation, hdisc, if_neg ha.not_gt, if_neg hd.not_gt]

theorem solver_iff (ha : vnaEpsilon ≤ |2 * a|) (hd : 0 ≤ discrim a b c) (x : ℝ) :
    a * (x * x) + b * x + c = 0 ↔
      x = (matchQuadraticEquation Real.sqrt a b c).1 ∨
        x = (matchQuadraticEquation Real.sqrt a b c).2 := by
  rw [solver_eq ha hd]
  exact quadratic_eq_zero_iff (ne_zero_of_epsilon_le ha) (Real.mul_self_sqrt hd).symm x

end Roots

end NanoVNA.MatchQuadratic
