import Mathlib.Analysis.SpecialFunctions.Trigonometric.Basic
import NanoVNA.Calibration
import NanoVNA.GridFrequencies
import NanoVNA.SweepRequests
import NanoVNA.ReflectionReadouts

namespace NanoVNA.ComponentReadouts

open NanoVNA.DeviceState NanoVNA.Calibration NanoVNA.SweepGrid NanoVNA.SweepFrequency
open NanoVNA.SweepRequests NanoVNA.GridFrequencies NanoVNA.Readouts NanoVNA.ReflectionReadouts

section Code

variable {R S : Type} [Field R]

/-- `ST_START` to `ST_VAR` -/
def stimulusOf : Nat → Option StimulusType
  | 0 => some .start
  | 1 => some .stop
  | 2 => some .center
  | 3 => some .cw
  | 4 => some .span
  | 5 => some .step
  | 6 => some .var
  | _ => none

/-- The index counts on from the kind of the first frequency. -/
def getW (pi : R) (p : Properties S) (i : Nat) : R :=
  2 * pi * (((stimulusOf (i % 65536)).elim 0 (getSweepFrequency p) : Nat) : R)

/-- The formats that `LC_MARKER_VALUE` selects. -/
inductive LcFormat
  | rlc
  | glc
  | rpLc
  | shuntRlc
  | seriesRlc
  deriving DecidableEq, Repr

/-- `get_re_cb` and `get_im_cb` of `marker_info_list` -/
def LcFormat.callbacks (portZ : R) (v : Sample R) : LcFormat → R × R
  | .rlc => (resistance portZ v, reactance portZ v)
  | .glc => (conductance portZ v, parallelX portZ v)
  | .rpLc => (parallelR portZ v, parallelX portZ v)
  | .shuntRlc => (s21shuntR portZ v, s21shuntX portZ v)
  | .seriesRlc => (s21seriesR portZ v, s21seriesX portZ v)

inductive Reactive
  | farad
  | henry
  deriving DecidableEq, Repr

def formatSmithValue [LinearOrder R] (m : LcFormat) (portZ w : R) (v : Sample R) :
    R × R × Reactive :=
  let (zr, zi) := m.callbacks portZ v
  if zi < 0 then (zr, -1 / (w * zi), .farad) else (zr, zi / w, .henry)

end Code

inductive Connection
  | series
  | parallel
  deriving DecidableEq, Repr

/-- A resistor with an inductor or a capacitor, in series or in parallel. The loss is the
resistance in series and the conductance in parallel. -/
structure Component where
  connection : Connection
  reactive : Reactive
  loss : ℝ
  value : ℝ
  loss_nonneg : 0 ≤ loss
  value_pos : 0 < value

namespace Component

variable (c : Component)

/-- The imaginary part of the impedance in series, of the admittance in parallel. -/
noncomputable def imaginary (w : ℝ) : ℝ :=
  match c.connection, c.reactive with
  | .series, .henry => w * c.value
  | .series, .farad => -1 / (w * c.value)
  | .parallel, .henry => -1 / (w * c.value)
  | .parallel, .farad => w * c.value

noncomputable def immittance (w : ℝ) : ℂ := ⟨c.loss, c.imaginary w⟩

noncomputable def reference (z : ℝ) : ℝ :=
  match c.connection with
  | .series => z
  | .parallel => 1 / z

noncomputable def reflection (z w : ℝ) : ℂ :=
  match c.connection with
  | .series => (c.immittance w - z) / (c.immittance w + z)
  | .parallel => (1 / z - c.immittance w) / (1 / z + c.immittance w)

noncomputable def sample (z w : ℝ) : Sample ℝ := ⟨(c.reflection z w).re, (c.reflection z w).im⟩

/-- The readouts and the markers of the connection give the value and its unit. -/
def Shown (z w : ℝ) (v : Sample ℝ) : Prop :=
  match c.connection, c.reactive with
  | .series, .henry =>
    seriesLImpl z v w = c.value ∧ (formatSmithValue .rlc z w v).2 = (c.value, .henry)
  | .series, .farad =>
    seriesCImpl z v w = c.value ∧ (formatSmithValue .rlc z w v).2 = (c.value, .farad)
  | .parallel, .henry =>
    parallelL z v w = c.value ∧ (formatSmithValue .glc z w v).2 = (c.value, .henry) ∧
      (formatSmithValue .rpLc z w v).2 = (c.value, .henry)
  | .parallel, .farad =>
    parallelC z v w = c.value ∧ (formatSmithValue .glc z w v).2 = (c.value, .farad) ∧
      (formatSmithValue .rpLc z w v).2 = (c.value, .farad)

end Component

/-- At a point of the grid the angular frequency is the one of the point, and a component that is
measured there is shown with its value. -/
def Recovered {S : Type} (p : Properties S) (i : Nat) (z : ℝ) (c : Component) : Prop :=
  getW Real.pi p i = 2 * Real.pi * sampleFrequency p i ∧
    c.Shown z (getW Real.pi p i) (c.sample z (2 * Real.pi * sampleFrequency p i))

/-- The point has the frequency that its index happens to name: the start, the stop, the center,
the first frequency or the span. -/
def Named {S : Type} (p : Properties S) (i : Nat) : Prop :=
  i = 0 ∨ (i = 1 ∧ sampleFrequency p i = (sweepGetOrdered p).2) ∨
    (i = 2 ∧ sampleFrequency p i = ((sweepGetOrdered p).1 + (sweepGetOrdered p).2) / 2) ∨
    (i = 3 ∧ sampleFrequency p i = p.frequency0) ∨
    (i = 4 ∧ sampleFrequency p i = (sweepGetOrdered p).2 - (sweepGetOrdered p).1)

section Frequency

variable {S : Type} {p : Properties S} {i : Nat}

theorem stimulus_iff (h : SweepSpans p)
    (hpos : 0 < sampleFrequency p i) :
    (stimulusOf i).elim 0 (getSweepFrequency p) = sampleFrequency p i ↔ Named p i := by
  have hspan := Word32.sub32_of_le h.lt h.le
  unfold Named
  match i with
  | 0 =>
    have hstart := (sampleFrequency_eq h h.points_pos).trans (gridFrequency_zero h)
    exact iff_of_true hstart.symm (.inl rfl)
  | 1 => simp [stimulusOf, getSweepFrequency, eq_comm]
  | 2 => simp [stimulusOf, getSweepFrequency, eq_comm]
  | 3 => simp [stimulusOf, getSweepFrequency, eq_comm]
  | 4 =>
    rw [stimulusOf, Option.elim_some, getSweepFrequency, hspan, eq_comm]
    simp
  | 5 => simp [stimulusOf, getSweepFrequency, Nat.ne_of_lt hpos]
  | 6 => simp [stimulusOf, getSweepFrequency, Nat.ne_of_lt hpos]
  | n + 7 => simp [stimulusOf, Nat.ne_of_lt hpos]

theorem getW_iff (h : SweepSpans p)
    (hi : i < p.sweepPoints) (hpos : 0 < sampleFrequency p i) :
    getW Real.pi p i = 2 * Real.pi * sampleFrequency p i ↔ Named p i := by
  have hindex : i % 65536 = i := Nat.mod_eq_of_lt (Nat.lt_trans hi h.counted)
  rw [getW, hindex, mul_right_inj' (mul_ne_zero two_ne_zero Real.pi_ne_zero), Nat.cast_inj]
  exact stimulus_iff h hpos

end Frequency

section Reflected

theorem normSq_sub_ne_zero {r : ℝ} {u : ℂ} (him : u.im ≠ 0) : Complex.normSq (u - r) ≠ 0 :=
  fun hzero => by
    have hpart := congrArg Complex.im (Complex.normSq_eq_zero.mp hzero)
    simp only [Complex.sub_im, Complex.ofReal_im, Complex.zero_im, sub_zero] at hpart
    exact him hpart

/-- The readout of the reactance for the reflection of an impedance on a real reference: it is off
by the square of twice the reference over the distance of the two. -/
theorem reactance_reflected {r : ℝ} (hr : 0 < r) {u : ℂ} (hre : 0 ≤ u.re) (him : u.im ≠ 0) :
    reactance r ⟨((u - r) / (u + r)).re, ((u - r) / (u + r)).im⟩ =
      u.im * (4 * r ^ 2 / Complex.normSq (u - r)) := by
  have hplus : Complex.normSq (u + r) ≠ 0 := fun hzero => by
    have hpart := congrArg Complex.re (Complex.normSq_eq_zero.mp hzero)
    simp only [Complex.add_re, Complex.ofReal_re, Complex.zero_re] at hpart
    linarith
  have hminus := normSq_sub_ne_zero (r := r) him
  have hsquare : getL ((u - r) / (u + r)).re ((u - r) / (u + r)).im =
      Complex.normSq (u - r) / Complex.normSq (u + r) := by
    rw [← map_div₀]
    rfl
  have hpart : ((u - r) / (u + r)).im = 2 * r * u.im / Complex.normSq (u + r) := by
    rw [Complex.div_im, ← sub_div]
    congr 1
    simp
    ring
  rw [reactance_eq, hsquare]
  dsimp only
  rw [hpart]
  field_simp
  ring

theorem norm_eq_iff {r : ℝ} (hr : 0 < r) {u : ℂ} (him : u.im ≠ 0) :
    u.im * (4 * r ^ 2 / Complex.normSq (u - r)) = u.im ↔ ‖u - r‖ = 2 * r := by
  have hminus := normSq_sub_ne_zero (r := r) him
  rw [mul_eq_left₀ him, div_eq_one_iff_eq hminus, ← sq_eq_sq₀ (norm_nonneg _) (by linarith),
    ← Complex.normSq_eq_norm_sq, eq_comm]
  ring_nf

end Reflected

namespace Component

variable (c : Component)

noncomputable def shownImaginary (z : ℝ) (v : Sample ℝ) : ℝ :=
  match c.connection with
  | .series => reactance z v
  | .parallel => susceptance z v

variable {c} {z w : ℝ} {v : Sample ℝ}

theorem reference_pos (hz : 0 < z) : 0 < c.reference z := by
  unfold reference
  split
  · exact hz
  · exact one_div_pos.mpr hz

theorem imaginary_ne_zero (hw : 0 < w) : c.imaginary w ≠ 0 := by
  have hprod : w * c.value ≠ 0 := ne_of_gt (mul_pos hw c.value_pos)
  have hquot : -1 / (w * c.value) ≠ 0 := div_ne_zero (neg_ne_zero.mpr one_ne_zero) hprod
  unfold imaginary
  split
  · exact hprod
  · exact hquot
  · exact hquot
  · exact hprod

theorem shownImaginary_sample (hz : 0 < z) (hw : 0 < w) :
    c.shownImaginary z (c.sample z w) =
      c.imaginary w *
        (4 * c.reference z ^ 2 / Complex.normSq (c.immittance w - c.reference z)) := by
  have hreflected := reactance_reflected (reference_pos (c := c) hz) (u := c.immittance w)
    c.loss_nonneg (imaginary_ne_zero hw)
  rw [← show (c.immittance w).im = c.imaginary w from rfl, ← hreflected]
  unfold shownImaginary sample reflection reference
  cases c.connection with
  | series => rfl
  | parallel =>
    have hopposite : (1 / z - c.immittance w) / (1 / z + c.immittance w) =
        -((c.immittance w - ((1 / z : ℝ) : ℂ)) / (c.immittance w + ((1 / z : ℝ) : ℂ))) := by
      push_cast
      rw [← neg_div, neg_sub, add_comm]
    dsimp only
    rw [hopposite]
    simp only [susceptance, reactance, Complex.neg_re, Complex.neg_im, ← sub_eq_add_neg]

theorem formatSmithValue_of_neg {m : LcFormat} (h : (m.callbacks z v).2 < 0) :
    (formatSmithValue m z w v).2 = (-1 / (w * (m.callbacks z v).2), .farad) := by
  unfold formatSmithValue
  dsimp only
  rw [if_pos h]

theorem formatSmithValue_of_nonneg {m : LcFormat} (h : 0 ≤ (m.callbacks z v).2) :
    (formatSmithValue m z w v).2 = ((m.callbacks z v).2 / w, .henry) := by
  unfold formatSmithValue
  dsimp only
  rw [if_neg (not_lt_of_ge h)]

theorem neg_inv_iff {x y : ℝ} (hw : w ≠ 0) (hx : x ≠ 0) (hy : y ≠ 0) :
    -1 / (w * x) = y ↔ x = -1 / (w * y) := by
  rw [div_eq_iff (mul_ne_zero hw hx), eq_div_iff (mul_ne_zero hw hy)]
  constructor <;> intro h <;> linarith

theorem shown_iff (hw : 0 < w) (hsign : 0 < c.shownImaginary z v * c.imaginary w) :
    c.Shown z w v ↔ c.shownImaginary z v = c.imaginary w := by
  have hprod : 0 < w * c.value := mul_pos hw c.value_pos
  have hquot : -1 / (w * c.value) < 0 := div_neg_of_neg_of_pos (by norm_num) hprod
  have hvalue : c.value ≠ 0 := ne_of_gt c.value_pos
  have hne : w ≠ 0 := ne_of_gt hw
  unfold Shown
  unfold shownImaginary imaginary at hsign ⊢
  cases hconnection : c.connection <;> cases hreactive : c.reactive <;>
    simp only [hconnection, hreactive] at hsign ⊢
  case series.henry =>
    have hpos : 0 < reactance z v := (pos_iff_pos_of_mul_pos hsign).mpr hprod
    have hmarker := formatSmithValue_of_nonneg (m := .rlc) (w := w) (le_of_lt hpos)
    rw [hmarker, Prod.mk.injEq, and_iff_left rfl]
    change reactance z v / w = c.value ∧ reactance z v / w = c.value ↔ _
    rw [and_self_iff, div_eq_iff hne, mul_comm]
  case series.farad =>
    have hneg : reactance z v < 0 := (neg_iff_neg_of_mul_pos hsign).mpr hquot
    have hmarker := formatSmithValue_of_neg (m := .rlc) (w := w) hneg
    rw [hmarker, Prod.mk.injEq, and_iff_left rfl]
    change -1 / (w * reactance z v) = c.value ∧ -1 / (w * reactance z v) = c.value ↔ _
    rw [and_self_iff, neg_inv_iff hne (ne_of_lt hneg) hvalue]
  case parallel.henry =>
    have hneg : susceptance z v < 0 := (neg_iff_neg_of_mul_pos hsign).mpr hquot
    have hpos : 0 ≤ parallelX z v :=
      div_nonneg_of_nonpos (by norm_num) (le_of_lt hneg)
    have hg := formatSmithValue_of_nonneg (m := .glc) (w := w) hpos
    have hrp := formatSmithValue_of_nonneg (m := .rpLc) (w := w) hpos
    rw [hg, hrp, Prod.mk.injEq, Prod.mk.injEq, and_iff_left rfl, and_iff_left rfl]
    change parallelX z v / w = c.value ∧ parallelX z v / w = c.value ∧
      parallelX z v / w = c.value ↔ _
    rw [and_self_iff, and_self_iff, parallelX, div_div, mul_comm,
      neg_inv_iff hne (ne_of_lt hneg) hvalue]
  case parallel.farad =>
    have hpos : 0 < susceptance z v := (pos_iff_pos_of_mul_pos hsign).mpr hprod
    have hneg : parallelX z v < 0 := div_neg_of_neg_of_pos (by norm_num) hpos
    have hinverse : -1 / (w * parallelX z v) = susceptance z v / w := by
      have hsus : susceptance z v ≠ 0 := ne_of_gt hpos
      rw [parallelX]
      field_simp
    have hg := formatSmithValue_of_neg (m := .glc) (w := w) hneg
    have hrp := formatSmithValue_of_neg (m := .rpLc) (w := w) hneg
    rw [hg, hrp, Prod.mk.injEq, Prod.mk.injEq, and_iff_left rfl, and_iff_left rfl]
    change susceptance z v / w = c.value ∧ -1 / (w * parallelX z v) = c.value ∧
      -1 / (w * parallelX z v) = c.value ↔ _
    rw [hinverse, and_self_iff, and_self_iff, div_eq_iff hne, mul_comm]

theorem shown_sample_iff (hz : 0 < z) (hw : 0 < w) :
    c.Shown z w (c.sample z w) ↔ ‖c.immittance w - c.reference z‖ = 2 * c.reference z := by
  have hreference := reference_pos (c := c) hz
  have himaginary : (c.immittance w).im ≠ 0 := imaginary_ne_zero hw
  have hshown := shownImaginary_sample (c := c) hz hw
  have hfactor : 0 < 4 * c.reference z ^ 2 / Complex.normSq (c.immittance w - c.reference z) :=
    div_pos (by positivity) (lt_of_le_of_ne (Complex.normSq_nonneg _)
      (normSq_sub_ne_zero himaginary).symm)
  have hsign : 0 < c.shownImaginary z (c.sample z w) * c.imaginary w := by
    rw [hshown, mul_right_comm]
    exact mul_pos (mul_self_pos.mpr himaginary) hfactor
  rw [shown_iff hw hsign, hshown]
  exact norm_eq_iff hreference himaginary

end Component

variable {S : Type} {p : Properties S} {i : Nat} {z : ℝ}

/-- The value of a component comes back where the index names the frequency of its point and the
impedance, or in parallel the admittance, lies twice the reference away from the reference. -/
theorem recovered_iff (h : SweepSpans p)
    (hi : i < p.sweepPoints) (hpos : 0 < sampleFrequency p i) (hz : 0 < z) (c : Component) :
    Recovered p i z c ↔ Named p i ∧
      ‖c.immittance (2 * Real.pi * sampleFrequency p i) - c.reference z‖ = 2 * c.reference z := by
  have hw : 0 < 2 * Real.pi * (sampleFrequency p i : ℝ) :=
    mul_pos (mul_pos two_pos Real.pi_pos) (Nat.cast_pos.mpr hpos)
  rw [← getW_iff h hi hpos]
  refine and_congr_right fun hfrequency => ?_
  rw [hfrequency]
  exact Component.shown_sample_iff hz hw

abbrev newSweep : Properties ℚ := (defaultVna ℚ .f072).props

noncomputable def coil : Component :=
  ⟨.series, .henry, 50, 1 / (2000 * Real.pi), by norm_num, by positivity⟩

theorem recovered_iff_coil :
    Recovered newSweep 0 50 coil ↔ Named newSweep 0 ∧
      ‖coil.immittance (2 * Real.pi * sampleFrequency newSweep 0) - coil.reference 50‖ =
        2 * coil.reference 50 :=
  recovered_iff (by decide) (by decide) (by decide +kernel) (by norm_num) coil

theorem coil_imaginary : coil.imaginary (2 * Real.pi * 50000) = 50 := by
  change 2 * Real.pi * 50000 * (1 / (2000 * Real.pi)) = 50
  have hpi := Real.pi_ne_zero
  field_simp
  norm_num

theorem coil_shown :
    seriesLImpl 50 (coil.sample 50 (2 * Real.pi * 50000)) (2 * Real.pi * 50000) =
      4 * coil.value := by
  have hpi := Real.pi_pos
  have hreading := Component.shownImaginary_sample (c := coil) (z := 50)
    (w := 2 * Real.pi * 50000) (by norm_num) (by positivity)
  have hdistance : Complex.normSq
      (coil.immittance (2 * Real.pi * 50000) - coil.reference 50) = 2500 := by
    rw [Complex.normSq_apply, Component.immittance, coil_imaginary]
    norm_num [coil, Component.reference]
  rw [hdistance, coil_imaginary] at hreading
  have hreactance : reactance 50 (coil.sample 50 (2 * Real.pi * 50000)) = 200 := by
    refine Eq.trans hreading ?_
    norm_num [coil, Component.reference]
  rw [seriesLImpl, hreactance]
  change _ = 4 * (1 / (2000 * Real.pi))
  field_simp
  norm_num

/-- At the first point the coil is shown with four times its inductance; at the second one the
angular frequency is the one of the stop frequency. -/
theorem not_recovered :
    seriesLImpl 50 (coil.sample 50 (2 * Real.pi * 50000)) (2 * Real.pi * 50000) = 4 * coil.value ∧
      sampleFrequency newSweep 1 = 9049500 ∧
      getW Real.pi newSweep 1 = 2 * Real.pi * 900000000 ∧
      ¬ Recovered newSweep 0 50 coil ∧ ¬ Recovered newSweep 1 50 coil := by
  have hpi := Real.pi_pos
  have hfirst : sampleFrequency newSweep 0 = 50000 := by decide +kernel
  have hsecond : sampleFrequency newSweep 1 = 9049500 := by decide +kernel
  have hstop : getW Real.pi newSweep 1 = 2 * Real.pi * 900000000 := by
    have hkind : (stimulusOf (1 % 65536)).elim 0 (getSweepFrequency newSweep) = 900000000 := by
      decide +kernel
    rw [getW, hkind]
    norm_num
  refine ⟨coil_shown, hsecond, hstop, fun hrecovered => ?_, fun hrecovered => ?_⟩
  · have hvalue := hrecovered.2.1
    rw [hrecovered.1, hfirst] at hvalue
    push_cast at hvalue
    have hpos := coil.value_pos
    have hsame := coil_shown.symm.trans hvalue
    linarith
  · have hfrequency := hrecovered.1
    rw [hstop, hsecond] at hfrequency
    push_cast at hfrequency
    linarith

end NanoVNA.ComponentReadouts
