import NanoVNA.ReflectionReadouts

namespace NanoVNA.FixtureReadouts

open NanoVNA.DeviceState NanoVNA.Readouts NanoVNA.ReflectionReadouts

noncomputable def shuntImpedance (z : ℝ) (v : Sample ℝ) : ℂ :=
  z / 2 * coefficient v / (1 - coefficient v)

noncomputable def seriesImpedance (z : ℝ) (v : Sample ℝ) : ℂ :=
  2 * z * (1 - coefficient v) / coefficient v

def ShuntShown (z : ℝ) (v : Sample ℝ) : Prop :=
  (⟨s21shuntR z v, s21shuntX z v⟩ : ℂ) = shuntImpedance z v

def SeriesShown (z : ℝ) (v : Sample ℝ) : Prop :=
  (⟨s21seriesR z v, s21seriesX z v⟩ : ℂ) = seriesImpedance z v

/-- The readouts of both fixtures show the impedance of the part, as far as it is defined. -/
structure FixturesShown (z : ℝ) (v : Sample ℝ) : Prop where
  shunt : coefficient v ≠ 1 → ShuntShown z v
  shuntModulus : coefficient v ≠ 1 → s21shuntZ z v Real.sqrt = ‖shuntImpedance z v‖
  series : coefficient v ≠ 0 → SeriesShown z v
  seriesModulus : coefficient v ≠ 0 → s21seriesZ z v Real.sqrt = ‖seriesImpedance z v‖

variable {z : ℝ} {v : Sample ℝ}

theorem coefficient_eq_iff (v : Sample ℝ) (x : ℝ) :
    coefficient v = x ↔ v.re = x ∧ v.im = 0 := by
  rw [Complex.ext_iff]
  exact Iff.rfl

theorem getL_ne_zero (h : coefficient v ≠ 0) : getL v.re v.im ≠ 0 := by
  rw [getL_coefficient, Ne, Complex.normSq_eq_zero]
  exact h

section Shunt

theorem s21shuntR_eq (z : ℝ) (v : Sample ℝ) :
    s21shuntR z v = z / 2 * (2 * v.re - getL v.re v.im) / getL (1 - v.re) v.im := by
  unfold s21shuntR getS21R getL
  congr 1 <;> ring

theorem s21shuntX_eq (z : ℝ) (v : Sample ℝ) :
    s21shuntX z v = z / 2 * (2 * v.im) / getL (1 - v.re) v.im := by
  unfold s21shuntX getS21X getL
  congr 1 <;> ring

theorem shuntImpedance_eq (z : ℝ) (v : Sample ℝ) :
    shuntImpedance z v =
      ⟨z / 2 * (v.re - getL v.re v.im) / getL (1 - v.re) v.im,
        z / 2 * v.im / getL (1 - v.re) v.im⟩ := by
  have hcast : (z / 2 : ℂ) = ((z / 2 : ℝ) : ℂ) := by
    push_cast
    rfl
  have hre : (coefficient v).re * (1 - coefficient v).re +
      (coefficient v).im * (1 - coefficient v).im = v.re - getL v.re v.im := by
    simp [coefficient, getL]
    ring
  have him : (coefficient v).im * (1 - coefficient v).re -
      (coefficient v).re * (1 - coefficient v).im = v.im := by
    simp [coefficient]
    ring
  rw [shuntImpedance, hcast, scaled_quotient, getL_sub, hre, him]

/-- Both parts count the transmission twice, so they are right without any. -/
theorem shuntShown_iff (hz : z ≠ 0) (h : coefficient v ≠ 1) :
    ShuntShown z v ↔ coefficient v = 0 := by
  have hb := getL_sub_ne_zero h
  have hhalf : z / 2 ≠ 0 := div_ne_zero hz two_ne_zero
  rw [ShuntShown, shuntImpedance_eq z v, s21shuntR_eq, s21shuntX_eq, Complex.mk.injEq,
    div_left_inj' hb, div_left_inj' hb, mul_right_inj' hhalf, mul_right_inj' hhalf,
    ← Complex.ofReal_zero, coefficient_eq_iff]
  constructor
  · rintro ⟨hr, hx⟩
    exact ⟨by linarith, by linarith⟩
  · rintro ⟨hr, hx⟩
    exact ⟨by linarith, by linarith⟩

theorem s21shuntZ_eq (hz : 0 ≤ z) : s21shuntZ z v Real.sqrt = ‖shuntImpedance z v‖ := by
  have hhalf : ‖(z / 2 : ℂ)‖ = 1 / 2 * z := by
    rw [norm_div, Complex.norm_real, Real.norm_of_nonneg hz, Complex.norm_ofNat]
    ring
  rw [shuntImpedance, norm_div, norm_mul, hhalf, s21shuntZ, getL_coefficient, getL_sub,
    Real.sqrt_div (Complex.normSq_nonneg _), mul_div_assoc]
  rfl

end Shunt

section Series

theorem s21seriesR_eq (z : ℝ) (v : Sample ℝ) :
    s21seriesR z v = 2 * z * (1 - getL v.re v.im) / getL v.re v.im := rfl

theorem s21seriesX_eq (z : ℝ) (v : Sample ℝ) :
    s21seriesX z v = 2 * z * (-2 * v.im) / getL v.re v.im := by
  unfold s21seriesX getS21X
  congr 1
  ring

theorem seriesImpedance_eq (z : ℝ) (v : Sample ℝ) :
    seriesImpedance z v =
      ⟨2 * z * (v.re - getL v.re v.im) / getL v.re v.im, 2 * z * (-v.im) / getL v.re v.im⟩ := by
  have hcast : (2 * z : ℂ) = ((2 * z : ℝ) : ℂ) := by
    push_cast
    rfl
  have hre : (1 - coefficient v).re * (coefficient v).re +
      (1 - coefficient v).im * (coefficient v).im = v.re - getL v.re v.im := by
    simp [coefficient, getL]
    ring
  have him : (1 - coefficient v).im * (coefficient v).re -
      (1 - coefficient v).re * (coefficient v).im = -v.im := by
    simp [coefficient]
    ring
  rw [seriesImpedance, hcast, scaled_quotient, ← getL_coefficient, hre, him]

/-- One takes the place of the real part and the imaginary part counts twice, so they are right
for the whole transmission. -/
theorem seriesShown_iff (hz : z ≠ 0) (h : coefficient v ≠ 0) :
    SeriesShown z v ↔ coefficient v = 1 := by
  have ha := getL_ne_zero h
  have hdouble : 2 * z ≠ 0 := mul_ne_zero two_ne_zero hz
  rw [SeriesShown, seriesImpedance_eq z v, s21seriesR_eq, s21seriesX_eq, Complex.mk.injEq,
    div_left_inj' ha, div_left_inj' ha, mul_right_inj' hdouble, mul_right_inj' hdouble,
    ← Complex.ofReal_one, coefficient_eq_iff]
  constructor
  · rintro ⟨hr, hx⟩
    exact ⟨by linarith, by linarith⟩
  · rintro ⟨hr, hx⟩
    exact ⟨by linarith, by linarith⟩

theorem s21seriesZ_eq (hz : 0 ≤ z) : s21seriesZ z v Real.sqrt = ‖seriesImpedance z v‖ := by
  have hdouble : ‖(2 * z : ℂ)‖ = 2 * z := by
    rw [norm_mul, Complex.norm_real, Real.norm_of_nonneg hz, Complex.norm_ofNat]
  rw [seriesImpedance, norm_div, norm_mul, hdouble, s21seriesZ, getL_coefficient, getL_sub,
    Real.sqrt_div (Complex.normSq_nonneg _), mul_div_assoc]
  rfl

end Series

/-- The moduli are always right, and the components where one of the two fixtures is open or the
other one is through. -/
theorem fixturesShown_iff (hz : 0 < z) (v : Sample ℝ) :
    FixturesShown z v ↔ coefficient v = 0 ∨ coefficient v = 1 := by
  have hne : z ≠ 0 := ne_of_gt hz
  have hle : 0 ≤ z := le_of_lt hz
  constructor
  · intro h
    by_cases hone : coefficient v = 1
    · exact .inr hone
    · exact .inl ((shuntShown_iff hne hone).mp (h.shunt hone))
  · rintro (hzero | hone)
    · refine ⟨fun h => (shuntShown_iff hne h).mpr hzero, fun _ => s21shuntZ_eq hle,
        fun h => absurd hzero h, fun _ => s21seriesZ_eq hle⟩
    · refine ⟨fun h => absurd hone h, fun _ => s21shuntZ_eq hle,
        fun h => (seriesShown_iff hne h).mpr hone, fun _ => s21seriesZ_eq hle⟩

theorem fixturesShown_iff_through :
    FixturesShown 50 ⟨1, 0⟩ ↔ coefficient ⟨1, 0⟩ = 0 ∨ coefficient ⟨1, 0⟩ = 1 :=
  fixturesShown_iff (by norm_num) ⟨1, 0⟩

/-- A resistor of 100 ohms in the line halves the transmission and is shown as 300 ohms; one of
25 ohms to the ground does the same and is shown as 75 ohms. -/
theorem fixtures_not_shown :
    seriesImpedance 50 ⟨1 / 2, 0⟩ = 100 ∧ s21seriesR (50 : ℝ) ⟨1 / 2, 0⟩ = 300 ∧
      shuntImpedance 50 ⟨1 / 2, 0⟩ = 25 ∧ s21shuntR (50 : ℝ) ⟨1 / 2, 0⟩ = 75 ∧
      ¬ FixturesShown 50 ⟨1 / 2, 0⟩ := by
  have hone : coefficient ⟨1 / 2, 0⟩ ≠ 1 := fun heq => by
    have hre : (1 / 2 : ℝ) = 1 := congrArg Complex.re heq
    norm_num at hre
  have hzero : coefficient ⟨1 / 2, 0⟩ ≠ 0 := fun heq => by
    have hre : (1 / 2 : ℝ) = 0 := congrArg Complex.re heq
    norm_num at hre
  refine ⟨?_, ?_, ?_, ?_, fun h => hzero ((shuntShown_iff (by norm_num) hone).mp (h.shunt hone))⟩
  · rw [seriesImpedance_eq]
    apply Complex.ext <;> norm_num [getL]
  · norm_num [s21seriesR, getS21R, getL]
  · rw [shuntImpedance_eq]
    apply Complex.ext <;> norm_num [getL]
  · norm_num [s21shuntR, getS21R, getL]

end NanoVNA.FixtureReadouts
