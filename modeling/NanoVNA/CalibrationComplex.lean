import Mathlib.Data.Complex.Basic
import NanoVNA.Calibration

namespace NanoVNA.CalibrationComplex

open NanoVNA.DeviceState NanoVNA.Calibration

def toComplex (x : Sample ℝ) : ℂ := ⟨x.re, x.im⟩

@[simp] theorem toComplex_zero : toComplex ⟨0, 0⟩ = 0 := rfl

@[simp] theorem toComplex_one : toComplex ⟨1, 0⟩ = 1 := rfl

variable {ed es open_ short ex thru : Sample ℝ}

theorem div_components (z w : ℂ) :
    z / w = ⟨(z.re * w.re + z.im * w.im) / (w.re * w.re + w.im * w.im),
      (z.im * w.re - z.re * w.im) / (w.re * w.re + w.im * w.im)⟩ := by
  apply Complex.ext
  · rw [Complex.div_re, Complex.normSq_apply, ← add_div]
  · rw [Complex.div_im, Complex.normSq_apply, ← sub_div]

theorem esOf_toComplex (h : tiny < Complex.normSq (toComplex open_ - toComplex short)) :
    toComplex (esOf ed open_ short) =
      (toComplex open_ - toComplex ed + (toComplex short - toComplex ed)) /
        (toComplex open_ - toComplex short) := by
  have hdiff : toComplex open_ - toComplex short =
      toComplex open_ - toComplex ed - (toComplex short - toComplex ed) := by ring
  rw [hdiff, Complex.normSq_apply] at h
  rw [hdiff, div_components, esOf]
  exact (congrArg toComplex (if_pos h)).trans rfl

theorem erOf_negative :
    toComplex (erOf (-1) ed es short) =
      -((1 + toComplex es) * (toComplex short - toComplex ed)) := by
  apply Complex.ext <;> simp [erOf, toComplex]

theorem erOf_positive :
    toComplex (erOf 1 ed es short) = (1 - toComplex es) * (toComplex short - toComplex ed) := by
  apply Complex.ext <;> simp [erOf, toComplex, ← sub_eq_add_neg]

theorem etOf_toComplex (h : tiny < Complex.normSq (toComplex thru - toComplex ex)) :
    toComplex (etOf ex thru) = 1 / (toComplex thru - toComplex ex) := by
  rw [Complex.normSq_apply] at h
  have hquot := div_components 1 (toComplex thru - toComplex ex)
  simp only [Complex.one_re, Complex.one_im, one_mul, zero_mul, add_zero, zero_sub] at hquot
  rw [hquot, etOf]
  exact (congrArg toComplex (if_pos h)).trans rfl

theorem applyCh0_toComplex (data : Data ℝ) (c : Point ℝ) :
    toComplex (applyCh0ErrorTerm data c).s11 =
      (toComplex data.s11 - toComplex (c Term.ed.cell)) /
        (toComplex (c Term.er.cell) +
          (toComplex data.s11 - toComplex (c Term.ed.cell)) * toComplex (c Term.es.cell)) := by
  have hden : toComplex (c Term.er.cell) +
      (toComplex data.s11 - toComplex (c Term.ed.cell)) * toComplex (c Term.es.cell) =
      ⟨(c Term.er.cell).re + (data.s11.re - (c Term.ed.cell).re) * (c Term.es.cell).re -
          (data.s11.im - (c Term.ed.cell).im) * (c Term.es.cell).im,
        (c Term.er.cell).im + (data.s11.re - (c Term.ed.cell).re) * (c Term.es.cell).im +
          (data.s11.im - (c Term.ed.cell).im) * (c Term.es.cell).re⟩ := by
    apply Complex.ext <;> simp [toComplex] <;> ring
  rw [hden, div_components, applyCh0ErrorTerm]
  dsimp only [toComplex, Complex.sub_re, Complex.sub_im]
  split
  · rw [mul_one_div, mul_one_div]
  · rename_i hzero
    rw [not_not.mp hzero, div_zero, div_zero]

theorem applyCh1_toComplex (st : CalStatus) (data : Data ℝ) (c : Point ℝ) :
    toComplex (applyCh1ErrorTerm st data c).s21 =
      if st.enhancedResponse then
        (1 - toComplex (c Term.es.cell) * toComplex data.s11) *
          ((toComplex data.s21 - toComplex (c Term.ex.cell)) * toComplex (c Term.et.cell))
      else (toComplex data.s21 - toComplex (c Term.ex.cell)) * toComplex (c Term.et.cell) := by
  unfold applyCh1ErrorTerm
  cases st.enhancedResponse with
  | true =>
    simp only [if_true]
    apply Complex.ext <;> simp [toComplex] <;> ring
  | false =>
    simp only [Bool.false_eq_true, if_false]
    apply Complex.ext <;> simp [toComplex]
    ring

end NanoVNA.CalibrationComplex
