import Mathlib.Analysis.SpecialFunctions.Complex.Arg
import NanoVNA.Calibration
import NanoVNA.GridFrequencies
import NanoVNA.SweepRequests

namespace NanoVNA.GroupDelay

open NanoVNA.DeviceState NanoVNA.Calibration NanoVNA.SweepGrid NanoVNA.SweepFrequency
open NanoVNA.SweepRequests NanoVNA.GridFrequencies

section Code

variable {R S : Type} [Field R] (atan2 : R → R → R) (pi : R)

def groupdelay (v w : Sample R) (deltaf : Nat) : R :=
  let r := w.re * v.re + w.im * v.im
  let i := w.re * v.im - w.im * v.re
  atan2 i r / (2 * pi * deltaf)

variable (p : Properties S)

def bottom (i : Nat) : Nat := if i = 0 then i else i - 1

def top (i : Nat) : Nat := if i = p.sweepPoints - 1 then i else i + 1

def delayStep (i : Nat) : Nat :=
  getSweepFrequency p .span / ((p.sweepPoints - 1) / (top p i - bottom i))

def groupdelayFromArray (data : Nat → Sample R) (i : Nat) : R :=
  groupdelay atan2 pi (data (bottom i)) (data (top p i)) (delayStep p i)

end Code

section Line

noncomputable def angle (y x : ℝ) : ℝ := Complex.arg ⟨x, y⟩

noncomputable def delayLine (tau : ℝ) (f : Nat) : Sample ℝ :=
  ⟨(Complex.exp (-(2 * Real.pi * f * tau) * Complex.I)).re,
    (Complex.exp (-(2 * Real.pi * f * tau) * Complex.I)).im⟩

theorem delayLine_eq (tau : ℝ) (f : Nat) :
    delayLine tau f =
      ⟨Real.cos (2 * Real.pi * f * tau), -Real.sin (2 * Real.pi * f * tau)⟩ := by
  have hangle : (-(2 * Real.pi * f * tau) : ℂ) = ((-(2 * Real.pi * f * tau) : ℝ) : ℂ) := by
    push_cast
    rfl
  rw [delayLine, hangle, Complex.exp_ofReal_mul_I_re, Complex.exp_ofReal_mul_I_im, Real.cos_neg,
    Real.sin_neg]

/-- The angle between two samples of the line is the one it turns by, as long as that is less than
half a turn. -/
theorem groupdelay_line {tau : ℝ} {f g deltaf : Nat}
    (hturn : |2 * Real.pi * ((g : ℝ) - f) * tau| < Real.pi) :
    groupdelay angle Real.pi (delayLine tau f) (delayLine tau g) deltaf =
      tau * ((g : ℝ) - f) / deltaf := by
  have hlo := neg_lt_of_abs_lt hturn
  have hhi := lt_of_abs_lt hturn
  have hre : Real.cos (2 * Real.pi * g * tau) * Real.cos (2 * Real.pi * f * tau) +
      -Real.sin (2 * Real.pi * g * tau) * -Real.sin (2 * Real.pi * f * tau) =
        Real.cos (2 * Real.pi * ((g : ℝ) - f) * tau) := by
    rw [neg_mul_neg, ← Real.cos_sub]
    exact congrArg Real.cos (by ring)
  have him : Real.cos (2 * Real.pi * g * tau) * -Real.sin (2 * Real.pi * f * tau) -
      -Real.sin (2 * Real.pi * g * tau) * Real.cos (2 * Real.pi * f * tau) =
        Real.sin (2 * Real.pi * ((g : ℝ) - f) * tau) := by
    have hsin := Real.sin_sub (2 * Real.pi * g * tau) (2 * Real.pi * f * tau)
    rw [← mul_sub_right_distrib, ← mul_sub] at hsin
    rw [hsin]
    ring
  have harg : angle (Real.sin (2 * Real.pi * ((g : ℝ) - f) * tau))
      (Real.cos (2 * Real.pi * ((g : ℝ) - f) * tau)) = 2 * Real.pi * ((g : ℝ) - f) * tau := by
    have hpoint := Complex.arg_cos_add_sin_mul_I ⟨hlo, le_of_lt hhi⟩
    rw [← Complex.ofReal_cos, ← Complex.ofReal_sin, ← Complex.mk_eq_add_mul_I] at hpoint
    exact hpoint
  rw [delayLine_eq, delayLine_eq, groupdelay]
  dsimp only
  rw [hre, him, harg, mul_assoc (2 * Real.pi), mul_div_mul_left _ _
    (mul_ne_zero two_ne_zero Real.pi_ne_zero), mul_comm tau]

end Line

variable {S : Type} {p : Properties S} {i k : Nat} {tau : ℝ}

def spacing (p : Properties S) (i : Nat) : Nat :=
  sampleFrequency p (top p i) - sampleFrequency p (bottom i)

def DelayShown (p : Properties S) (i : Nat) (tau : ℝ) : Prop :=
  ∃ d : ℝ, |d| ≤ 1 ∧
    groupdelayFromArray angle Real.pi p (fun j => delayLine tau (sampleFrequency p j)) i *
      (spacing p i + d) = tau * spacing p i

section Spacing

theorem gridFrequency_spacing {start stop points : Nat} (h : Spans start stop points) (i k : Nat) :
    (stop - start) * k / (points - 1) ≤
        gridFrequency start stop points (i + k) - gridFrequency start stop points i ∧
      gridFrequency start stop points (i + k) - gridFrequency start stop points i ≤
        (stop - start) * k / (points - 1) + 1 := by
  have hnumerator : (stop - start) * (i + k) + (points - 1) / 2 =
      ((stop - start) * i + (points - 1) / 2) + (stop - start) * k := by
    rw [Nat.mul_add]
    omega
  rw [gridFrequency, gridFrequency, hnumerator, Nat.add_div h.steps_pos]
  generalize (stop - start) * k / (points - 1) = steps
  generalize ((stop - start) * i + (points - 1) / 2) / (points - 1) = before
  split <;> omega

theorem bottom_cases (p : Properties S) (h : 2 ≤ p.sweepPoints) (hi : i < p.sweepPoints) :
    (i = 0 ∨ i = p.sweepPoints - 1) ∧ top p i = bottom i + 1 ∧ top p i < p.sweepPoints ∨
      (i ≠ 0 ∧ i ≠ p.sweepPoints - 1) ∧ bottom i = i - 1 ∧ top p i = i + 1 := by
  unfold bottom top
  split <;> split <;> omega

variable (h : SweepSpans p) (hi : i < p.sweepPoints)

include h

theorem span_eq :
    getSweepFrequency p .span = (sweepGetOrdered p).2 - (sweepGetOrdered p).1 :=
  Word32.sub32_of_le h.lt h.le

include hi

theorem spacing_bounds :
    getSweepFrequency p .span * (top p i - bottom i) / (p.sweepPoints - 1) ≤ spacing p i ∧
      spacing p i ≤
        getSweepFrequency p .span * (top p i - bottom i) / (p.sweepPoints - 1) + 1 := by
  have hcases := bottom_cases p h.two hi
  have hbounds := gridFrequency_spacing h (bottom i) (top p i - bottom i)
  rw [Nat.add_sub_cancel' (by omega)] at hbounds
  rw [spacing, sampleFrequency_eq h (by omega), sampleFrequency_eq h (by omega), span_eq h]
  exact hbounds

theorem spacing_le_succ : spacing p i ≤ delayStep p i + 1 := by
  have hcases := bottom_cases p h.two hi
  have hsteps := h.steps_pos
  refine Nat.le_trans (spacing_bounds h hi).2 (Nat.succ_le_succ ?_)
  have hpos : 0 < top p i - bottom i := by omega
  have hcount : 0 < (p.sweepPoints - 1) / (top p i - bottom i) := Nat.div_pos (by omega) hpos
  calc getSweepFrequency p .span * (top p i - bottom i) / (p.sweepPoints - 1)
      ≤ getSweepFrequency p .span * (top p i - bottom i) /
          ((p.sweepPoints - 1) / (top p i - bottom i) * (top p i - bottom i)) :=
        Nat.div_le_div_left (Nat.div_mul_le_self _ _) (Nat.mul_pos hcount hpos)
    _ = delayStep p i := Nat.mul_div_mul_right _ _ hpos

theorem delayStep_le (hsplit : (p.sweepPoints - 1) % (top p i - bottom i) = 0) :
    delayStep p i ≤ spacing p i := by
  have hcases := bottom_cases p h.two hi
  have hpos : 0 < top p i - bottom i := by omega
  refine Nat.le_trans (Nat.le_of_eq ?_) (spacing_bounds h hi).1
  rw [delayStep, ← Nat.mul_div_mul_right _ _ hpos,
    Nat.div_mul_cancel (Nat.dvd_of_mod_eq_zero hsplit)]

variable (hdistinct : p.sweepPoints - 1 ≤ (sweepGetOrdered p).2 - (sweepGetOrdered p).1)

include hdistinct

theorem delayStep_pos : 0 < delayStep p i := by
  have hcases := bottom_cases p h.two hi
  have hsteps := h.steps_pos
  have hcount : 0 < (p.sweepPoints - 1) / (top p i - bottom i) := Nat.div_pos (by omega) (by omega)
  rw [delayStep, span_eq h]
  exact Nat.div_pos (Nat.le_trans (Nat.div_le_self _ _) hdistinct) hcount

theorem bottom_lt_top :
    sampleFrequency p (bottom i) < sampleFrequency p (top p i) := by
  have hcases := bottom_cases p h.two hi
  rw [sampleFrequency_eq h (by omega), sampleFrequency_eq h (by omega)]
  exact gridFrequency_lt h hdistinct (by omega)

end Spacing

theorem spacing_cast (hlt : sampleFrequency p (bottom i) < sampleFrequency p (top p i)) :
    (spacing p i : ℝ) = (sampleFrequency p (top p i) : ℝ) - sampleFrequency p (bottom i) :=
  Nat.cast_sub (Nat.le_of_lt hlt)

theorem groupdelayFromArray_line
    (hlt : sampleFrequency p (bottom i) < sampleFrequency p (top p i))
    (hturn : |2 * Real.pi * spacing p i * tau| < Real.pi) :
    groupdelayFromArray angle Real.pi p (fun j => delayLine tau (sampleFrequency p j)) i =
      tau * spacing p i / delayStep p i := by
  rw [spacing_cast hlt] at hturn ⊢
  exact groupdelay_line hturn

theorem delayShown_iff_step (h : SweepSpans p) (hi : i < p.sweepPoints)
    (hdistinct : p.sweepPoints - 1 ≤ (sweepGetOrdered p).2 - (sweepGetOrdered p).1)
    (hturn : |2 * Real.pi * spacing p i * tau| < Real.pi) :
    DelayShown p i tau ↔ tau = 0 ∨ delayStep p i ≤ spacing p i + 1 := by
  have hlt := bottom_lt_top h hi hdistinct
  have hstep : (0 : ℝ) < delayStep p i := Nat.cast_pos.mpr (delayStep_pos h hi hdistinct)
  have hpos : (0 : ℝ) < spacing p i := Nat.cast_pos.mpr (Nat.sub_pos_of_lt hlt)
  have hbelow : (spacing p i : ℝ) ≤ delayStep p i + 1 := by
    exact_mod_cast spacing_le_succ h hi
  unfold DelayShown
  rw [groupdelayFromArray_line hlt hturn]
  constructor
  · rintro ⟨d, hd, heq⟩
    by_cases hzero : tau = 0
    · exact .inl hzero
    · have hd1 := le_of_abs_le hd
      have hne : tau * spacing p i ≠ 0 := mul_ne_zero hzero (ne_of_gt hpos)
      rw [div_mul_eq_mul_div, div_eq_iff (ne_of_gt hstep), mul_right_inj' hne] at heq
      have hle : (delayStep p i : ℝ) ≤ spacing p i + 1 := by linarith
      exact .inr (by exact_mod_cast hle)
  · rintro (hzero | hle)
    · exact ⟨0, by norm_num, by rw [hzero]; ring⟩
    · have hle' : (delayStep p i : ℝ) ≤ spacing p i + 1 := by exact_mod_cast hle
      refine ⟨delayStep p i - spacing p i, abs_le.mpr ⟨by linarith, by linarith⟩, ?_⟩
      rw [add_sub_cancel, div_mul_cancel₀ _ (ne_of_gt hstep)]

/-- The delay comes back at the ends of the sweep, and inside it for an odd number of points; for
an even number half of the steps is rounded down, and the step is right only as far as it stays
within a hertz. -/
theorem delayShown_iff (h : SweepSpans p) (hi : i < p.sweepPoints)
    (hdistinct : p.sweepPoints - 1 ≤ (sweepGetOrdered p).2 - (sweepGetOrdered p).1)
    (hturn : |2 * Real.pi * spacing p i * tau| < Real.pi) :
    DelayShown p i tau ↔
      tau = 0 ∨ i = 0 ∨ i = p.sweepPoints - 1 ∨ p.sweepPoints % 2 = 1 ∨
        ((sweepGetOrdered p).2 - (sweepGetOrdered p).1) / ((p.sweepPoints - 1) / 2) ≤
          sampleFrequency p (i + 1) - sampleFrequency p (i - 1) + 1 := by
  rw [delayShown_iff_step h hi hdistinct hturn]
  refine or_congr_right ?_
  obtain ⟨hend, hnext, -⟩ | ⟨hinner, hbottom, htop⟩ := bottom_cases p h.two hi
  · have hsplit : (p.sweepPoints - 1) % (top p i - bottom i) = 0 := by
      rw [hnext, Nat.add_sub_cancel_left, Nat.mod_one]
    refine iff_of_true (Nat.le_succ_of_le (delayStep_le h hi hsplit)) ?_
    exact hend.elim .inl fun hlast => .inr (.inl hlast)
  · have htwo : i + 1 - (i - 1) = 2 := by omega
    rw [or_iff_right hinner.1, or_iff_right hinner.2]
    by_cases hodd : p.sweepPoints % 2 = 1
    · have hsplit : (p.sweepPoints - 1) % (top p i - bottom i) = 0 := by
        rw [htop, hbottom, htwo]
        omega
      exact iff_of_true (Nat.le_succ_of_le (delayStep_le h hi hsplit)) (.inl hodd)
    · rw [or_iff_right hodd, delayStep, spacing, htop, hbottom, htwo, span_eq h]

abbrev sweepOf (points : Nat) : Properties ℚ :=
  { (defaultVna ℚ .f072).props with sweepPoints := points }

theorem turn_small {f : Nat} (hf : f < 500000000) :
    |2 * Real.pi * f * (1 / 1000000000)| < Real.pi := by
  have hpi := Real.pi_pos
  have hcast : (f : ℝ) < 500000000 := by exact_mod_cast hf
  rw [abs_of_nonneg (by positivity)]
  calc 2 * Real.pi * f * (1 / 1000000000) = Real.pi * (f / 500000000) := by ring
    _ < Real.pi * 1 := mul_lt_mul_of_pos_left ((div_lt_one (by norm_num)).mpr hcast) hpi
    _ = Real.pi := mul_one _

theorem delayShown_iff_nanosecond :
    DelayShown (sweepOf 101) 50 (1 / 1000000000) ↔
      (1 / 1000000000 : ℝ) = 0 ∨ 50 = 0 ∨ 50 = (sweepOf 101).sweepPoints - 1 ∨
        (sweepOf 101).sweepPoints % 2 = 1 ∨
        ((sweepGetOrdered (sweepOf 101)).2 - (sweepGetOrdered (sweepOf 101)).1) /
            (((sweepOf 101).sweepPoints - 1) / 2) ≤
          sampleFrequency (sweepOf 101) (50 + 1) - sampleFrequency (sweepOf 101) (50 - 1) + 1 :=
  delayShown_iff (by decide) (by decide) (by decide) (turn_small (by decide +kernel))

/-- On 22 points a line of one nanosecond is shown five per cent short inside the sweep: the
neighbours are 85709524 Hz apart and the step is taken as 89995000 Hz. -/
theorem delay_not_shown :
    groupdelayFromArray angle Real.pi (sweepOf 22)
        (fun j => delayLine (1 / 1000000000) (sampleFrequency (sweepOf 22) j)) 10 =
        1 / 1000000000 * 85709524 / 89995000 ∧
      spacing (sweepOf 22) 10 = 85709524 ∧
      ¬ DelayShown (sweepOf 22) 10 (1 / 1000000000) := by
  have hspacing : spacing (sweepOf 22) 10 = 85709524 := by decide +kernel
  have hstep : delayStep (sweepOf 22) 10 = 89995000 := by decide +kernel
  have hturn : |2 * Real.pi * spacing (sweepOf 22) 10 * (1 / 1000000000)| < Real.pi :=
    turn_small (by rw [hspacing]; decide)
  refine ⟨?_, hspacing, fun hshown => ?_⟩
  · rw [groupdelayFromArray_line (by decide +kernel) hturn, hspacing, hstep]
    norm_num
  · have hstays := (delayShown_iff_step (by decide) (by decide) (by decide) hturn).mp hshown
    rw [hspacing, hstep] at hstays
    norm_num at hstays

end NanoVNA.GroupDelay
