import Mathlib.Tactic.FieldSimp
import Mathlib.Tactic.Ring
import NanoVNA.Numerals

namespace NanoVNA.ReferenceImpedance

variable {K : Type} [Field K] {a c p q z : K}

/-- The reflection of the impedance `z` at a port of the impedance `z0`. -/
def reflection (z0 z : K) : K := (z - z0) / (z + z0)

/-- A reflection `g` as a port sees it that itself reflects `k`. -/
def changed (k g : K) : K := (g - k) / (1 - g * k)

theorem reflection_self (z : K) : reflection z z = 0 := by simp [reflection]

theorem one_sub_reflection_mul (hp : p + a ≠ 0) (hz : z + c ≠ 0) :
    1 - reflection c z * reflection a p = 2 * (a * z + p * c) / ((z + c) * (p + a)) := by
  rw [reflection, reflection]
  field_simp
  ring

theorem reflection_sub_reflection (hp : p + a ≠ 0) (hz : z + c ≠ 0) :
    reflection c z - reflection a p = 2 * (a * z - p * c) / ((z + c) * (p + a)) := by
  rw [reflection, reflection]
  field_simp
  ring

/-- The change from the reference `a` to `p` takes a reflection that refers to `c` to one that
refers to `p * c / a`. -/
theorem changed_reflection (h2 : (2 : K) ≠ 0) (ha : a ≠ 0) (hp : p + a ≠ 0) (hz : z + c ≠ 0) :
    changed (reflection a p) (reflection c z) = reflection (p * c / a) z := by
  have hquot : reflection (p * c / a) z = (a * z - p * c) / (a * z + p * c) := by
    rw [reflection, ← mul_div_mul_left (z - p * c / a) (z + p * c / a) ha, mul_sub, mul_add,
      mul_div_cancel₀ _ ha]
  rw [changed, reflection_sub_reflection hp hz, one_sub_reflection_mul hp hz, hquot,
    div_div_div_cancel_right₀ (mul_ne_zero hz hp), mul_div_mul_left _ _ h2]

theorem reflection_eq_iff (h2 : (2 : K) ≠ 0) (hp : z + p ≠ 0) (hq : z + q ≠ 0) :
    reflection p z = reflection q z ↔ z = 0 ∨ p = q := by
  rw [reflection, reflection, div_eq_div_iff hp hq]
  have hdiff : (z - p) * (z + q) - (z - q) * (z + p) = 2 * z * (q - p) := by ring
  rw [← sub_eq_zero, hdiff, mul_eq_zero, mul_eq_zero, or_iff_right h2, sub_eq_zero]
  exact or_congr_right eq_comm

end NanoVNA.ReferenceImpedance
