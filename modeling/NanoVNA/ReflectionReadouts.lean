import Mathlib.Analysis.Complex.Basic
import Mathlib.Tactic.FieldSimp
import Mathlib.Tactic.LinearCombination
import NanoVNA.Readouts

namespace NanoVNA.ReflectionReadouts

open NanoVNA.DeviceState NanoVNA.Readouts

def coefficient (v : Sample ℝ) : ℂ := ⟨v.re, v.im⟩

noncomputable def impedance (z : ℝ) (v : Sample ℝ) : ℂ :=
  z * (1 + coefficient v) / (1 - coefficient v)

noncomputable def admittance (z : ℝ) (v : Sample ℝ) : ℂ :=
  1 / z * (1 - coefficient v) / (1 + coefficient v)

def ImpedanceShown (z : ℝ) (v : Sample ℝ) : Prop :=
  (⟨resistance z v, reactance z v⟩ : ℂ) = impedance z v

def AdmittanceShown (z : ℝ) (v : Sample ℝ) : Prop :=
  (⟨conductance z v, susceptance z v⟩ : ℂ) = admittance z v

/-- All readouts of a reflection show the same impedance, as far as it is defined. -/
structure ReadoutsAgree (z : ℝ) (v : Sample ℝ) : Prop where
  impedance : coefficient v ≠ 1 → ImpedanceShown z v
  admittance : coefficient v ≠ -1 → AdmittanceShown z v
  modulus : coefficient v ≠ 1 → modZ z v Real.sqrt ^ 2 = resistance z v ^ 2 + reactance z v ^ 2
  quality : coefficient v ≠ 1 → qualityfactor v = |reactance z v / resistance z v|
  parallel : coefficient v ≠ -1 →
    parallelR z v = 1 / conductance z v ∧ parallelX z v = -1 / susceptance z v

variable {z : ℝ} {v : Sample ℝ}

section Squares

theorem getL_coefficient (v : Sample ℝ) : getL v.re v.im = Complex.normSq (coefficient v) := rfl

theorem getL_sub (v : Sample ℝ) :
    getL (1 - v.re) v.im = Complex.normSq (1 - coefficient v) := by
  simp [getL, coefficient, Complex.normSq_apply]

theorem getL_add (v : Sample ℝ) :
    getL (1 + v.re) v.im = Complex.normSq (1 + coefficient v) := by
  simp [getL, coefficient, Complex.normSq_apply]

theorem getL_sub_ne_zero (h : coefficient v ≠ 1) : getL (1 - v.re) v.im ≠ 0 := by
  rw [getL_sub, Ne, Complex.normSq_eq_zero]
  exact sub_ne_zero.mpr h.symm

theorem scaled_quotient (k : ℝ) (p q : ℂ) :
    k * p / q =
      ⟨k * (p.re * q.re + p.im * q.im) / Complex.normSq q,
        k * (p.im * q.re - p.re * q.im) / Complex.normSq q⟩ := by
  apply Complex.ext
  · rw [Complex.div_re, Complex.re_ofReal_mul, Complex.im_ofReal_mul]
    ring
  · rw [Complex.div_im, Complex.re_ofReal_mul, Complex.im_ofReal_mul]
    ring

end Squares

section Impedance

theorem resistance_eq (z : ℝ) (v : Sample ℝ) :
    resistance z v = z * (1 - getL (1 - v.re) v.im) / getL v.re v.im := by
  unfold resistance getS11R getL
  congr 1 <;> ring

theorem reactance_eq (z : ℝ) (v : Sample ℝ) :
    reactance z v = z * (2 * v.im) / getL v.re v.im := by
  unfold reactance getS11X getL
  congr 1 <;> ring

theorem impedance_eq (z : ℝ) (v : Sample ℝ) :
    impedance z v =
      ⟨z * (1 - getL v.re v.im) / getL (1 - v.re) v.im,
        z * (2 * v.im) / getL (1 - v.re) v.im⟩ := by
  have hre : (1 + coefficient v).re * (1 - coefficient v).re +
      (1 + coefficient v).im * (1 - coefficient v).im = 1 - getL v.re v.im := by
    simp [coefficient, getL]
    ring
  have him : (1 + coefficient v).im * (1 - coefficient v).re -
      (1 + coefficient v).re * (1 - coefficient v).im = 2 * v.im := by
    simp [coefficient]
    ring
  rw [impedance, scaled_quotient, getL_sub, hre, him]

theorem half_of_swapped (hz : z ≠ 0) (ha : getL v.re v.im ≠ 0) (hb : getL (1 - v.re) v.im ≠ 0)
    (hr : z * (1 - getL (1 - v.re) v.im) * getL (1 - v.re) v.im =
      z * (1 - getL v.re v.im) * getL v.re v.im)
    (hx : z * (2 * v.im) * getL (1 - v.re) v.im = z * (2 * v.im) * getL v.re v.im) :
    v.re = 1 / 2 := by
  by_contra hne
  have hdiff : getL (1 - v.re) v.im - getL v.re v.im ≠ 0 := fun hzero => by
    refine hne ?_
    simp only [getL] at hzero
    linarith
  have him : v.im = 0 := by
    have hprod : z * (2 * v.im) * (getL (1 - v.re) v.im - getL v.re v.im) = 0 := by
      rw [mul_sub, hx, sub_self]
    have hfactor := (mul_eq_zero.mp hprod).resolve_right hdiff
    have hdouble := (mul_eq_zero.mp hfactor).resolve_left hz
    linarith
  have hsum : 1 - getL v.re v.im - getL (1 - v.re) v.im = 0 := by
    have hprod : z * (getL (1 - v.re) v.im - getL v.re v.im) *
        (1 - getL v.re v.im - getL (1 - v.re) v.im) = 0 := by
      linear_combination hr
    exact (mul_eq_zero.mp hprod).resolve_left (mul_ne_zero hz hdiff)
  have hends : v.re * (1 - v.re) = 0 := by
    simp only [getL, him] at hsum
    linarith
  obtain hre | hre := mul_eq_zero.mp hends
  · exact ha (by simp [getL, hre, him])
  · exact hb (by simp [getL, hre, him])

/-- The helper is called with one minus the coefficient where the coefficient itself belongs, so
the two squares change places; they agree on the line where the real part is one half. -/
theorem impedanceShown_iff (hz : z ≠ 0) (h : coefficient v ≠ 1) :
    ImpedanceShown z v ↔ v.re = 1 / 2 := by
  have hb := getL_sub_ne_zero h
  rw [ImpedanceShown, impedance_eq z v, resistance_eq, reactance_eq, Complex.mk.injEq]
  constructor
  · rintro ⟨hr, hx⟩
    have ha : getL v.re v.im ≠ 0 := fun hzero => by
      rw [hzero, div_zero, sub_zero, mul_one] at hr
      exact div_ne_zero hz hb hr.symm
    rw [div_eq_div_iff ha hb] at hr hx
    exact half_of_swapped hz ha hb hr hx
  · intro hre
    have hsame : getL (1 - v.re) v.im = getL v.re v.im := by
      simp only [getL]
      rw [hre]
      norm_num
    rw [hsame]
    exact ⟨rfl, rfl⟩

end Impedance

section Admittance

/-- The admittance of a coefficient is the impedance of the opposite one, on the inverse scale. -/
def opposite (v : Sample ℝ) : Sample ℝ := ⟨-v.re, -v.im⟩

theorem coefficient_opposite (v : Sample ℝ) : coefficient (opposite v) = -coefficient v := rfl

theorem admittanceShown_iff_opposite (z : ℝ) (v : Sample ℝ) :
    AdmittanceShown z v ↔ ImpedanceShown (1 / z) (opposite v) := by
  have hshape : admittance z v = impedance (1 / z) (opposite v) := by
    rw [admittance, impedance, coefficient_opposite, sub_neg_eq_add, ← sub_eq_add_neg]
    push_cast
    rfl
  unfold AdmittanceShown ImpedanceShown
  rw [hshape]
  simp only [conductance, susceptance, resistance, reactance, opposite, sub_neg_eq_add, neg_neg]

theorem admittanceShown_iff (hz : z ≠ 0) (h : coefficient v ≠ -1) :
    AdmittanceShown z v ↔ v.re = -1 / 2 := by
  have hopposite : coefficient (opposite v) ≠ 1 := fun heq => by
    rw [coefficient_opposite] at heq
    exact h (neg_eq_iff_eq_neg.mp heq)
  rw [admittanceShown_iff_opposite, impedanceShown_iff (one_div_ne_zero hz) hopposite]
  simp only [opposite]
  constructor <;> intro hre <;> linarith

end Admittance

section Moduli

theorem modZ_eq (hz : 0 ≤ z) : modZ z v Real.sqrt = ‖impedance z v‖ := by
  rw [impedance, norm_div, norm_mul, Complex.norm_real, Real.norm_of_nonneg hz, modZ, getL_add,
    getL_sub, Real.sqrt_div (Complex.normSq_nonneg _), mul_div_assoc]
  rfl

theorem qualityfactor_eq (hz : z ≠ 0) (h : coefficient v ≠ 1) :
    qualityfactor v = |(impedance z v).im / (impedance z v).re| := by
  have hb := getL_sub_ne_zero h
  rw [impedance_eq z v, qualityfactor]
  dsimp only
  rw [div_div_div_cancel_right₀ hb, mul_div_mul_left _ _ hz]

end Moduli

/-- Resistance and reactance are right on the line where the real part of the coefficient is one
half, conductance and susceptance on the opposite line, and the modulus and the quality factor
everywhere; nowhere do all readouts agree. -/
theorem readouts_disagree (hz : 0 < z) (v : Sample ℝ) :
    (coefficient v ≠ 1 → (ImpedanceShown z v ↔ v.re = 1 / 2)) ∧
      (coefficient v ≠ -1 → (AdmittanceShown z v ↔ v.re = -1 / 2)) ∧
      (coefficient v ≠ 1 → modZ z v Real.sqrt = ‖impedance z v‖ ∧
        qualityfactor v = |(impedance z v).im / (impedance z v).re|) ∧
      ¬ ReadoutsAgree z v := by
  have hne : z ≠ 0 := ne_of_gt hz
  refine ⟨impedanceShown_iff hne, admittanceShown_iff hne,
    fun h => ⟨modZ_eq (le_of_lt hz), qualityfactor_eq hne h⟩, fun hagree => ?_⟩
  by_cases hone : coefficient v = 1
  · have hminus : coefficient v ≠ -1 := by
      rw [hone]
      norm_num
    have hre := (admittanceShown_iff hne hminus).mp (hagree.admittance hminus)
    have hre1 : v.re = 1 := congrArg Complex.re hone
    linarith
  · have hre := (impedanceShown_iff hne hone).mp (hagree.impedance hone)
    have hminus : coefficient v ≠ -1 := fun heq => by
      have hre1 : v.re = -1 := congrArg Complex.re heq
      linarith
    have hre' := (admittanceShown_iff hne hminus).mp (hagree.admittance hminus)
    linarith

theorem readouts_disagree_matched :
    (coefficient ⟨0, 0⟩ ≠ 1 → (ImpedanceShown 50 ⟨0, 0⟩ ↔ (0 : ℝ) = 1 / 2)) ∧
      (coefficient ⟨0, 0⟩ ≠ -1 → (AdmittanceShown 50 ⟨0, 0⟩ ↔ (0 : ℝ) = -1 / 2)) ∧
      (coefficient ⟨0, 0⟩ ≠ 1 → modZ 50 ⟨0, 0⟩ Real.sqrt = ‖impedance 50 ⟨0, 0⟩‖ ∧
        qualityfactor (⟨0, 0⟩ : Sample ℝ) =
          |(impedance 50 ⟨0, 0⟩).im / (impedance 50 ⟨0, 0⟩).re|) ∧
      ¬ ReadoutsAgree 50 ⟨0, 0⟩ :=
  readouts_disagree (by norm_num) ⟨0, 0⟩

/-- A load of 100 ohms on 50 ohms is shown as 250 ohms, and its conductance as −7/50 siemens. -/
theorem impedance_not_shown :
    impedance 50 ⟨1 / 3, 0⟩ = 100 ∧ resistance (50 : ℝ) ⟨1 / 3, 0⟩ = 250 ∧
      conductance (50 : ℝ) ⟨1 / 3, 0⟩ = -7 / 50 ∧ ¬ ReadoutsAgree 50 ⟨1 / 3, 0⟩ := by
  have hne : coefficient ⟨1 / 3, 0⟩ ≠ 1 := fun heq => by
    have hre : (1 / 3 : ℝ) = 1 := congrArg Complex.re heq
    norm_num at hre
  have himpedance : impedance 50 ⟨1 / 3, 0⟩ = 100 := by
    rw [impedance_eq]
    apply Complex.ext <;> norm_num [getL]
  refine ⟨himpedance, ?_, ?_, fun hagree => ?_⟩
  · norm_num [resistance, getS11R, getL]
  · norm_num [conductance, getS11R, getL]
  · have hshown := congrArg Complex.re (hagree.impedance hne)
    rw [himpedance] at hshown
    norm_num [resistance, getS11R, getL] at hshown

end NanoVNA.ReflectionReadouts
