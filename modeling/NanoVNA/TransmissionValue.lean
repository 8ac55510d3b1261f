import Mathlib.Algebra.Order.Ring.Basic
import Mathlib.Tactic.LinearCombination
import Mathlib.Tactic.Ring
import NanoVNA.SweepPoint

namespace NanoVNA.TransmissionValue

open NanoVNA.DeviceState NanoVNA.Calibration NanoVNA.SweepPoint

variable {R : Type}

section Product

variable [Field R]

def zeroSample : Sample R := ⟨0, 0⟩

def mul (x y : Sample R) : Sample R := ⟨x.re * y.re - x.im * y.im, x.im * y.re + x.re * y.im⟩

def sub (x y : Sample R) : Sample R := ⟨x.re - y.re, x.im - y.im⟩

def scale (x : Sample R) (k : R) : Sample R := ⟨x.re * k, x.im * k⟩

omit [Field R] in
@[ext] theorem sample_ext {x y : Sample R} (hre : x.re = y.re) (him : x.im = y.im) : x = y := by
  cases x
  cases y
  exact congrArg₂ Sample.mk hre him

@[simp] theorem mul_zero_right (x : Sample R) : mul x zeroSample = zeroSample := by
  simp [mul, zeroSample]

@[simp] theorem mul_zero_left (x : Sample R) : mul zeroSample x = zeroSample := by
  simp [mul, zeroSample]

@[simp] theorem scale_zero (x : Sample R) : scale x 0 = zeroSample := by
  simp [scale, zeroSample]

theorem scale_cancel {x y : Sample R} {k : R} (hk : k ≠ 0) (h : scale x k = scale y k) : x = y := by
  obtain ⟨hre, him⟩ := (Sample.mk.injEq _ _ _ _).mp h
  exact sample_ext (mul_right_cancel₀ hk hre) (mul_right_cancel₀ hk him)

variable [LinearOrder R] [IsStrictOrderedRing R]

theorem mul_cancel {x y r : Sample R} (hr : r ≠ zeroSample) (h : mul x r = mul y r) : x = y := by
  obtain ⟨hre, him⟩ := (Sample.mk.injEq _ _ _ _).mp h
  have hnorm : r.re * r.re + r.im * r.im ≠ 0 := by
    intro hzero
    obtain ⟨hre0, him0⟩ := mul_self_add_mul_self_eq_zero.mp hzero
    exact hr (sample_ext hre0 him0)
  apply sample_ext
  · apply mul_right_cancel₀ hnorm
    linear_combination r.re * hre + r.im * him
  · apply mul_right_cancel₀ hnorm
    linear_combination r.re * him - r.im * hre

theorem mul_cancel_left {x y r : Sample R} (hr : r ≠ zeroSample) (h : mul r x = mul r y) :
    x = y := by
  have hswap : ∀ z : Sample R, mul z r = mul r z := by
    intro z
    apply sample_ext <;> simp only [mul] <;> ring
  exact mul_cancel hr ((hswap x).trans (h.trans (hswap y).symm))

theorem mul_ne_zero {x y : Sample R} (hx : x ≠ zeroSample) (hy : y ≠ zeroSample) :
    mul x y ≠ zeroSample := by
  intro h
  exact hx (mul_cancel hy (h.trans (mul_zero_left y).symm))

end Product

section Stages

variable [Field R] (cfg : Config R)

/-- `1 − Es · S11`, the factor of the enhanced response. -/
def matchFactor (es s11 : Sample R) : Sample R := sub ⟨1, 0⟩ (mul es s11)

/-- `(S21m − Ex) · Et` -/
def tracked (raw ex et : Sample R) : Sample R := mul (sub raw ex) et

theorem applyCh1_s21 (st : CalStatus) (d : Data R) (c : Point R) :
    (applyCh1ErrorTerm st d c).s21 =
      if st.enhancedResponse then
        mul (matchFactor (c Term.es.cell) d.s11) (tracked d.s21 (c Term.ex.cell) (c Term.et.cell))
      else tracked d.s21 (c Term.ex.cell) (c Term.et.cell) := by
  unfold applyCh1ErrorTerm
  cases st.enhancedResponse with
  | true => simp only [if_true, mul, matchFactor, tracked, sub]
  | false => simp only [Bool.false_eq_true, if_false, mul, tracked, sub]

variable (i : Nat)

def rotation : Sample R :=
  let w := cfg.electricalDelayS21 * pointFrequency cfg i
  ⟨(cfg.sinCos w).2, (cfg.sinCos w).1⟩

def finish (x : Sample R) : Sample R :=
  let x := if cfg.mask.applyEdelayS21 then mul x (rotation cfg i) else x
  if cfg.mask.applyS21Offset then scale x (sweepOffset cfg) else x

def s21Of (s11 : Sample R) : Sample R :=
  (processCh1 cfg (pointFrequency cfg i) (pointTerms cfg i) (sweepOffset cfg)
    ⟨s11, cfg.response (pointFrequency cfg i) 1⟩).s21

theorem s21Of_eq (s11 : Sample R) :
    s21Of cfg i s11 = finish cfg i
      (if cfg.mask.applyCalibration then
        (applyCh1ErrorTerm cfg.props.calStatus ⟨s11, cfg.response (pointFrequency cfg i) 1⟩
          (pointTerms cfg i)).s21
      else cfg.response (pointFrequency cfg i) 1) := by
  unfold s21Of processCh1 finish
  by_cases hcal : cfg.mask.applyCalibration <;> by_cases hdelay : cfg.mask.applyEdelayS21 <;>
    by_cases hoffset : cfg.mask.applyS21Offset <;>
    simp only [hcal, hdelay, hoffset, if_true, if_false, Bool.false_eq_true] <;> rfl

structure Sensitive : Prop where
  calibrated : cfg.mask.applyCalibration = true
  enhanced : cfg.props.calStatus.enhancedResponse = true
  sourceMatch : pointTerms cfg i Term.es.cell ≠ zeroSample
  raw : sub (cfg.response (pointFrequency cfg i) 1) (pointTerms cfg i Term.ex.cell) ≠ zeroSample
  tracking : pointTerms cfg i Term.et.cell ≠ zeroSample
  delay : cfg.mask.applyEdelayS21 = true → rotation cfg i ≠ zeroSample
  offset : cfg.mask.applyS21Offset = true → sweepOffset cfg ≠ 0

theorem s21Of_insensitive (h : ¬ Sensitive cfg i) (a b : Sample R) :
    s21Of cfg i a = s21Of cfg i b := by
  rw [s21Of_eq, s21Of_eq]
  cases hcal : cfg.mask.applyCalibration with
  | false => simp only [Bool.false_eq_true, if_false]
  | true =>
    simp only [if_true]
    rw [applyCh1_s21, applyCh1_s21]
    cases henh : cfg.props.calStatus.enhancedResponse with
    | false => simp only [Bool.false_eq_true, if_false]
    | true =>
      simp only [if_true]
      by_cases hes : pointTerms cfg i Term.es.cell = zeroSample
      · rw [hes]
        simp only [matchFactor, mul_zero_left]
      by_cases hraw : sub (cfg.response (pointFrequency cfg i) 1) (pointTerms cfg i Term.ex.cell) =
          zeroSample
      · simp only [tracked, hraw, mul_zero_left, mul_zero_right]
      by_cases het : pointTerms cfg i Term.et.cell = zeroSample
      · simp only [tracked, het, mul_zero_right]
      by_cases hdelay : cfg.mask.applyEdelayS21 = true → rotation cfg i ≠ zeroSample
      · by_cases hoffset : cfg.mask.applyS21Offset = true → sweepOffset cfg ≠ 0
        · exact absurd ⟨hcal, henh, hes, hraw, het, hdelay, hoffset⟩ h
        · obtain ⟨hbit, hzero⟩ := Classical.not_imp.mp hoffset
          unfold finish
          simp only [hbit, if_true, not_not.mp hzero, scale_zero]
      · obtain ⟨hbit, hzero⟩ := Classical.not_imp.mp hdelay
        unfold finish
        simp only [hbit, if_true, not_not.mp hzero, mul_zero_right]

variable [LinearOrder R] [IsStrictOrderedRing R]

theorem finish_cancel (h : Sensitive cfg i) {x y : Sample R}
    (hxy : finish cfg i x = finish cfg i y) : x = y := by
  unfold finish at hxy
  have hdelay : (if cfg.mask.applyEdelayS21 then mul x (rotation cfg i) else x) =
      if cfg.mask.applyEdelayS21 then mul y (rotation cfg i) else y := by
    cases hoffset : cfg.mask.applyS21Offset with
    | false => simpa only [hoffset, Bool.false_eq_true, if_false] using hxy
    | true =>
      simp only [hoffset, if_true] at hxy
      exact scale_cancel (h.offset hoffset) hxy
  cases hbit : cfg.mask.applyEdelayS21 with
  | false => simpa only [hbit, Bool.false_eq_true, if_false] using hdelay
  | true =>
    simp only [hbit, if_true] at hdelay
    exact mul_cancel (h.delay hbit) hdelay

theorem s21Of_injective (h : Sensitive cfg i) : Function.Injective (s21Of cfg i) := by
  intro a b hab
  rw [s21Of_eq, s21Of_eq] at hab
  have hcorrected := finish_cancel cfg i h hab
  simp only [h.calibrated, if_true, applyCh1_s21, h.enhanced] at hcorrected
  have hfactor := mul_cancel (mul_ne_zero h.raw h.tracking) hcorrected
  apply mul_cancel_left h.sourceMatch
  obtain ⟨hre, him⟩ := (Sample.mk.injEq _ _ _ _).mp hfactor
  exact sample_ext (sub_right_injective hre) (sub_right_injective him)

end Stages

end NanoVNA.TransmissionValue
