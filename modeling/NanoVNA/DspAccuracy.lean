import NanoVNA.PackedDsp
import NanoVNA.SinCosAccuracy

namespace NanoVNA.DspAccuracy

open NanoVNA.CalibrationComplex (toComplex)
open NanoVNA.DeviceState NanoVNA.DspBackend NanoVNA.PackedDsp NanoVNA.SinCosAccuracy
open NanoVNA.SinCosTable (vnaSincosf)
open NanoVNA.SineTable NanoVNA.Truncation

section Ratio

variable {K : Type} [NormedField K]

theorem norm_div_sub_le {s r e f : K} (hf : ‖f‖ < ‖r‖) :
    ‖(s + e) / (r + f) - s / r‖ ≤ (‖e‖ + ‖s / r‖ * ‖f‖) / (‖r‖ - ‖f‖) := by
  have hr : r ≠ 0 := norm_pos_iff.mp ((norm_nonneg f).trans_lt hf)
  have hsum : ‖r‖ - ‖f‖ ≤ ‖r + f‖ := by
    have := norm_sub_le (r + f) f
    rw [add_sub_cancel_right] at this
    linarith
  have hpos : 0 < ‖r‖ - ‖f‖ := sub_pos.mpr hf
  have hne : r + f ≠ 0 := norm_pos_iff.mp (hpos.trans_le hsum)
  have hsplit : (s + e) / (r + f) - s / r = (e - s / r * f) / (r + f) := by
    field_simp
    ring
  rw [hsplit, norm_div]
  calc ‖e - s / r * f‖ / ‖r + f‖ ≤ (‖e‖ + ‖s / r * f‖) / ‖r + f‖ :=
        div_le_div_of_nonneg_right (norm_sub_le _ _) (norm_nonneg _)
    _ = (‖e‖ + ‖s / r‖ * ‖f‖) / ‖r + f‖ := by rw [norm_mul]
    _ ≤ (‖e‖ + ‖s / r‖ * ‖f‖) / (‖r‖ - ‖f‖) :=
        div_le_div_of_nonneg_left (by positivity) hpos hsum

end Ratio

section Table

/-- The table of the larger board, at exact angles; the source adds up the step in single
precision. -/
def sincosTbl (offset : Nat) : Nat → Int16 × Int16 :=
  generateDspTable (fun w : ℚ => (vnaSincosf .f303 sinTableQtr.values w).getD (0, 0))
    (fun s => Int16.ofInt (truncate (s * 32700))) offset

theorem abs_truncate_sub_le (v : ℚ) : |(truncate v : ℚ) - v| ≤ 1 := by
  rw [truncate, abs_le]
  split_ifs
  · constructor <;> linarith [Int.floor_le v, Int.lt_floor_add_one v]
  · constructor <;> linarith [Int.le_ceil v, Int.ceil_lt_add_one v]

theorem stored_near {s : ℚ} {x : ℝ} (hs : |(s : ℝ) - x| ≤ 7 / 10 ^ 7) (hx : |x| ≤ 1) :
    |((Int16.ofInt (truncate (s * 32700))).toInt : ℝ) - 32700 * x| ≤ 103 / 100 := by
  obtain ⟨hlow, hhigh⟩ := abs_le.mp hs
  obtain ⟨hxlow, hxhigh⟩ := abs_le.mp hx
  have htrunc := abs_truncate_sub_le (s * 32700)
  have hreal : |((truncate (s * 32700) : Int) : ℝ) - s * 32700| ≤ 1 := by exact_mod_cast htrunc
  obtain ⟨htlow, hthigh⟩ := abs_le.mp hreal
  have hfit : -2 ^ 15 ≤ truncate (s * 32700) ∧ truncate (s * 32700) < 2 ^ 15 := by
    constructor
    · have : (-32768 : ℝ) ≤ (truncate (s * 32700) : Int) := by linarith
      exact_mod_cast this
    · have : ((truncate (s * 32700) : Int) : ℝ) < 32768 := by linarith
      exact_mod_cast this
  rw [Int16.toInt_ofInt_of_le hfit.1 hfit.2, abs_le]
  constructor <;> linarith

variable (offset i : Nat)

theorem phase_turns : ((phase ((offset : ℚ) / audioAdcFreq) i : ℚ) : ℝ) * (2 * Real.pi) =
    sampleAngle offset * (i + 1 / 2) := by
  rw [phase_eq, sampleAngle]
  push_cast
  ring

theorem sincosTbl_near :
    |((sincosTbl offset i).1.toInt : ℝ) -
        32700 * Real.sin (sampleAngle offset * (i + 1 / 2))| ≤ 103 / 100 ∧
      |((sincosTbl offset i).2.toInt : ℝ) -
        32700 * Real.cos (sampleAngle offset * (i + 1 / 2))| ≤ 103 / 100 := by
  obtain ⟨s, c, hvalue, hs, hc⟩ := vnaSincosf_near (phase ((offset : ℚ) / audioAdcFreq) i)
  have hangle : 2 * Real.pi * (phase ((offset : ℚ) / audioAdcFreq) i : ℚ) =
      sampleAngle offset * (i + 1 / 2) := by
    rw [mul_comm, phase_turns]
  rw [hangle] at hs hc
  have hentry : sincosTbl offset i =
      (Int16.ofInt (truncate (s * 32700)), Int16.ofInt (truncate (c * 32700))) := by
    rw [sincosTbl, generateDspTable, hvalue]
    rfl
  rw [hentry]
  exact ⟨stored_near hs (Real.abs_sin_le_one _), stored_near hc (Real.abs_cos_le_one _)⟩

noncomputable def entry : ℂ := ⟨(sincosTbl offset i).2.toInt, (sincosTbl offset i).1.toInt⟩

theorem entry_near :
    ‖entry offset i - 32700 * circle (sampleAngle offset * (i + 1 / 2))‖ ≤ 206 / 100 := by
  obtain ⟨hsin, hcos⟩ := sincosTbl_near offset i
  refine (norm_le_of_parts (b := 103 / 100) (c := 103 / 100) ?_ ?_).trans_eq (by norm_num)
  · simpa [entry, circle] using hcos
  · simpa [entry, circle] using hsin

theorem norm_entry_le : ‖entry offset i‖ ≤ 32703 := by
  have hnear := entry_near offset i
  have hsplit := norm_add_le (entry offset i -
    32700 * circle (sampleAngle offset * (i + 1 / 2)))
    (32700 * circle (sampleAngle offset * (i + 1 / 2)))
  rw [sub_add_cancel, norm_mul, norm_circle] at hsplit
  norm_num at hsplit
  linarith

end Table

section Sums

variable {offset : Nat}

/-- The samples of an input over the buffers of a measurement, correlated with the table. -/
noncomputable def correlation (offset buffers : Nat) (x : Nat → Nat → Int16) : ℂ :=
  ∑ j ∈ Finset.range buffers, ∑ i ∈ Finset.range 96, ((x j i).toInt : ℂ) * entry offset i

theorem correlation_succ (buffers : Nat) (x : Nat → Nat → Int16) :
    correlation offset (buffers + 1) x = correlation offset buffers x +
      ∑ i ∈ Finset.range 96, ((x buffers i).toInt : ℂ) * entry offset i :=
  Finset.sum_range_succ _ _

def toReals (acc : Accumulators Int64) : Accumulators ℝ :=
  ⟨acc.sampS.toInt, acc.sampC.toInt, acc.refS.toInt, acc.refC.toInt⟩

theorem correlation_integer (captured : Nat → Nat → Int16 × Int16) (buffers : Nat) :
    let acc := ((List.range buffers).map captured).foldl
      (fun acc capture => dspProcessM4 (toInts (sincosTbl offset)) 96 acc (toInts capture))
      ⟨0, 0, 0, 0⟩
    (⟨acc.sampC, acc.sampS⟩ : ℂ) = correlation offset buffers (fun j i => (captured j i).2) ∧
      (⟨acc.refC, acc.refS⟩ : ℂ) = correlation offset buffers fun j i => (captured j i).1 := by
  induction buffers with
  | zero =>
    simp only [List.range_zero, List.map_nil, List.foldl_nil, correlation, Finset.range_zero,
      Finset.sum_empty, Int.cast_zero]
    exact ⟨rfl, rfl⟩
  | succ buffers ih =>
    dsimp only at ih ⊢
    rw [List.range_succ, List.map_append, List.foldl_append, List.map_singleton,
      List.foldl_cons, List.foldl_nil]
    generalize ((List.range buffers).map captured).foldl _ _ = acc at ih ⊢
    rw [correlation_succ, correlation_succ, ← ih.1, ← ih.2, dspProcessM4, foldl_accumulate]
    constructor <;>
    · apply Complex.ext <;>
        simp [entry, toInts, Complex.mul_re, Complex.mul_im, Complex.re_sum, Complex.im_sum]

theorem norm_signal_le (T : ℂ) (w : ℝ) (n : ℤ) : |signal T w n| ≤ ‖T‖ := by
  have hphase : Complex.exp (Complex.I * (w * n)) = circle (w * n) := by
    rw [circle_eq, mul_comm]
    push_cast
    rfl
  rw [signal, hphase]
  refine (Complex.abs_re_le_norm _).trans_eq ?_
  rw [norm_mul, norm_circle, mul_one, RCLike.norm_conj]

/-- The samples of an input with a phasor, each up to `q`. -/
def Sampled (offset buffers : Nat) (q : ℝ) (T : ℂ) (n : ℤ) (x : Nat → Nat → Int16) : Prop :=
  ∀ j < buffers, ∀ i < 96,
    |((x j i).toInt : ℝ) - signal T (sampleAngle offset) (n + j * 96 + i)| ≤ q

variable {buffers : Nat} {q : ℝ} {T : ℂ} {n : ℤ} {x : Nat → Nat → Int16}

theorem term_near (hx : Sampled offset buffers q T n x) {j i : Nat} (hj : j < buffers)
    (hi : i < 96) :
    ‖((x j i).toInt : ℂ) * entry offset i - signal T (sampleAngle offset) (n + j * 96 + i) *
        (32700 * circle (sampleAngle offset * (i + 1 / 2)))‖ ≤ q * 32703 + ‖T‖ * (206 / 100) := by
  have hsample := hx j hj i hi
  have hsplit : ((x j i).toInt : ℂ) * entry offset i -
      signal T (sampleAngle offset) (n + j * 96 + i) *
        (32700 * circle (sampleAngle offset * (i + 1 / 2))) =
      (((x j i).toInt : ℝ) - signal T (sampleAngle offset) (n + j * 96 + i) : ℝ) *
          entry offset i +
        signal T (sampleAngle offset) (n + j * 96 + i) *
          (entry offset i - 32700 * circle (sampleAngle offset * (i + 1 / 2))) := by
    push_cast
    ring
  rw [hsplit]
  refine (norm_add_le _ _).trans ?_
  rw [norm_mul, norm_mul, Complex.norm_real, Complex.norm_real, Real.norm_eq_abs,
    Real.norm_eq_abs]
  exact add_le_add
    (mul_le_mul hsample (norm_entry_le offset i) (norm_nonneg _) ((abs_nonneg _).trans hsample))
    (mul_le_mul (norm_signal_le T _ _) (entry_near offset i) (norm_nonneg _) (norm_nonneg _))

theorem exact_buffer (hmul : audioAdcFreq / audioSamplesCount .f303 ∣ offset) (hpos : 0 < offset)
    (hnyquist : offset < audioAdcFreq / 2) (j : Nat) :
    ∑ i ∈ Finset.range 96, (signal T (sampleAngle offset) (n + j * 96 + i) : ℂ) *
        (32700 * circle (sampleAngle offset * (i + 1 / 2))) =
      gain .f303 32700 1 offset n * T := by
  have hsum := sum_signal T (n + j * 96) (exp_period .f303 hmul) (exp_half hpos hnyquist)
  have hgain := gain_add_buffer .f303 hmul 32700 1 n j
  have hangle (i : Nat) : circle (sampleAngle offset * (i + 1 / 2)) =
      Complex.exp (Complex.I * (sampleAngle offset * (i + 1 / 2))) := by
    rw [circle_eq, mul_comm]
    push_cast
    rfl
  have hcount : audioSamplesCount .f303 = 96 := rfl
  rw [hcount] at hsum hgain
  calc _ = 32700 * ∑ i ∈ Finset.range 96, (signal T (sampleAngle offset) (n + j * 96 + i) : ℂ) *
        Complex.exp (Complex.I * (sampleAngle offset * (i + 1 / 2))) := by
        rw [Finset.mul_sum]
        refine Finset.sum_congr rfl fun i _ => ?_
        rw [hangle]
        ring
    _ = gain .f303 32700 1 offset (n + j * 96) * T := by
        rw [hsum, gain, hcount]
        push_cast
        ring
    _ = gain .f303 32700 1 offset n * T := by
        push_cast at hgain
        rw [hgain]

theorem correlation_near (hmul : audioAdcFreq / audioSamplesCount .f303 ∣ offset)
    (hpos : 0 < offset) (hnyquist : offset < audioAdcFreq / 2)
    (hx : Sampled offset buffers q T n x) :
    ‖correlation offset buffers x - buffers * gain .f303 32700 1 offset n * T‖ ≤
      buffers * (96 * (q * 32703 + ‖T‖ * (206 / 100))) := by
  have hexact : buffers * gain .f303 32700 1 offset n * T =
      ∑ j ∈ Finset.range buffers, ∑ i ∈ Finset.range 96,
        (signal T (sampleAngle offset) (n + j * 96 + i) : ℂ) *
          (32700 * circle (sampleAngle offset * (i + 1 / 2))) := by
    rw [Finset.sum_congr rfl fun j _ => exact_buffer hmul hpos hnyquist j, Finset.sum_const,
      Finset.card_range, nsmul_eq_mul, mul_assoc]
  have hbuffer (j : Nat) (hj : j ∈ Finset.range buffers) :
      ‖∑ i ∈ Finset.range 96, (((x j i).toInt : ℂ) * entry offset i -
        signal T (sampleAngle offset) (n + j * 96 + i) *
          (32700 * circle (sampleAngle offset * (i + 1 / 2))))‖ ≤
        96 * (q * 32703 + ‖T‖ * (206 / 100)) := by
    refine (norm_sum_le_of_le _ fun i hi =>
      term_near hx (Finset.mem_range.mp hj) (Finset.mem_range.mp hi)).trans_eq ?_
    rw [Finset.sum_const, Finset.card_range, nsmul_eq_mul]
    norm_num
  rw [hexact, correlation, ← Finset.sum_sub_distrib]
  simp only [← Finset.sum_sub_distrib]
  refine (norm_sum_le_of_le _ hbuffer).trans_eq ?_
  rw [Finset.sum_const, Finset.card_range, nsmul_eq_mul]

end Sums

section Measurement

variable {offset buffers : Nat} {q : ℝ} {n : ℤ}

noncomputable def errorOf (q : ℝ) (T : ℂ) : ℝ := 2.001 * q + ‖T‖ / 7900

theorem norm_gain (n : ℤ) : ‖gain .f303 32700 1 offset n‖ = 32700 * 48 := by
  have hphase : Complex.exp (-(Complex.I * (sampleAngle offset * (n - 1 / 2)))) =
      circle (-(sampleAngle offset * (n - 1 / 2))) := by
    rw [circle_eq, mul_comm Complex.I]
    push_cast
    rw [neg_mul]
  rw [gain, hphase, norm_mul, norm_mul, norm_mul, norm_circle]
  norm_num [audioSamplesCount]

theorem correlation_split (hmul : audioAdcFreq / audioSamplesCount .f303 ∣ offset)
    (hpos : 0 < offset) (hnyquist : offset < audioAdcFreq / 2) (hbuffers : 0 < buffers)
    {T : ℂ} {x : Nat → Nat → Int16} (hx : Sampled offset buffers q T n x) (hq : 0 ≤ q) :
    ∃ e, correlation offset buffers x = buffers * gain .f303 32700 1 offset n * (T + e) ∧
      ‖e‖ ≤ errorOf q T := by
  have hnear := correlation_near hmul hpos hnyquist hx
  have hcount : (0 : ℝ) < buffers := by exact_mod_cast hbuffers
  have hnorm : ‖(buffers : ℂ) * gain .f303 32700 1 offset n‖ = buffers * (32700 * 48) := by
    rw [norm_mul, norm_gain, Complex.norm_natCast]
  have hfactor : (buffers : ℂ) * gain .f303 32700 1 offset n ≠ 0 := by
    rw [← norm_pos_iff, hnorm]
    positivity
  refine ⟨(correlation offset buffers x - buffers * gain .f303 32700 1 offset n * T) /
    (buffers * gain .f303 32700 1 offset n), ?_, ?_⟩
  · rw [mul_add, mul_div_cancel₀ _ hfactor]
    ring
  · rw [norm_div, hnorm, div_le_iff₀ (by positivity), errorOf]
    refine hnear.trans ?_
    have hT := norm_nonneg T
    have hscaled : 96 * (q * 32703 + ‖T‖ * (206 / 100)) ≤
        (2.001 * q + ‖T‖ / 7900) * (32700 * 48) := by
      linarith
    have hall := mul_le_mul_of_nonneg_left hscaled hcount.le
    linarith

/-- The measured ratio of two phasors, from quantized samples, the table as it is stored and sums
of 64 bits. -/
theorem gamma_near (hmul : audioAdcFreq / audioSamplesCount .f303 ∣ offset) (hpos : 0 < offset)
    (hnyquist : offset < audioAdcFreq / 2) (hbuffers : 0 < buffers)
    (hroom : buffers * 96 < 2 ^ 33) {captured : Nat → Nat → Int16 × Int16} {R S : ℂ}
    (href : Sampled offset buffers q R n fun j i => (captured j i).1)
    (hsamp : Sampled offset buffers q S n fun j i => (captured j i).2)
    (hlevel : errorOf q R < ‖R‖) :
    ‖toComplex (calculateGamma (toReals (packedRun (sincosTbl offset) 96
        ((List.range buffers).map captured)))) - S / R‖ ≤
      (errorOf q S + ‖S / R‖ * errorOf q R) / (‖R‖ - errorOf q R) := by
  have hq : 0 ≤ q := (abs_nonneg _).trans (href 0 hbuffers 0 (by decide))
  have hlength : ((List.range buffers).map captured).length * 96 < 2 ^ 33 := by
    rw [List.length_map, List.length_range]
    exact hroom
  have hpacked := holds_run (sincosTbl offset) (by decide : 0 < 96) _ hlength
  obtain ⟨hS, hR⟩ := @correlation_integer offset captured buffers
  obtain ⟨e, he, herror⟩ := correlation_split hmul hpos hnyquist hbuffers hsamp hq
  obtain ⟨f, hf, hreference⟩ := correlation_split hmul hpos hnyquist hbuffers href hq
  have hfactor : (buffers : ℂ) * gain .f303 32700 1 offset n ≠ 0 :=
    mul_ne_zero (by exact_mod_cast hbuffers.ne')
      (gain_ne_zero .f303 (by norm_num) one_ne_zero n)
  have hsmall : ‖f‖ < ‖R‖ := hreference.trans_lt hlevel
  have hne : R + f ≠ 0 := by
    intro h0
    have hopposite : ‖f‖ = ‖R‖ := by rw [← neg_eq_of_add_eq_zero_right h0, norm_neg]
    exact hsmall.ne hopposite
  have hsampOf : sampOf (toReals (packedRun (sincosTbl offset) 96
      ((List.range buffers).map captured))) =
      buffers * gain .f303 32700 1 offset n * (S + e) := by
    rw [← he, ← hS, sampOf, toReals, hpacked.sampC.1, hpacked.sampS.1]
  have hrefOf : refOf (toReals (packedRun (sincosTbl offset) 96
      ((List.range buffers).map captured))) =
      buffers * gain .f303 32700 1 offset n * (R + f) := by
    rw [← hf, ← hR, refOf, toReals, hpacked.refC.1, hpacked.refS.1]
  rw [calculateGamma_eq (hrefOf ▸ mul_ne_zero hfactor hne), hsampOf, hrefOf,
    mul_div_mul_left _ _ hfactor]
  refine (norm_div_sub_le hsmall).trans ?_
  have hratio := mul_le_mul_of_nonneg_left hreference (norm_nonneg (S / R))
  have hroomR : 0 < ‖R‖ - errorOf q R := sub_pos.mpr hlevel
  have hnonneg : 0 ≤ ‖e‖ + ‖S / R‖ * ‖f‖ := by positivity
  exact div_le_div₀ (hnonneg.trans (add_le_add herror hratio)) (add_le_add herror hratio) hroomR
    (sub_le_sub_left hreference _)

noncomputable def rounded (offset : Nat) (T : ℂ) (j i : Nat) : Int16 :=
  Int16.ofInt (round (signal T (sampleAngle offset) (0 + j * 96 + i)))

theorem sampled_rounded {T : ℂ} (hT : ‖T‖ ≤ 32000) :
    Sampled offset buffers (1 / 2) T 0 (rounded offset T) := by
  intro j _ i _
  have hlevel := abs_le.mp ((norm_signal_le T (sampleAngle offset) (0 + j * 96 + i)).trans hT)
  have hround := abs_sub_round (signal T (sampleAngle offset) (0 + j * 96 + i))
  obtain ⟨hlow, hhigh⟩ := abs_le.mp hround
  have hfit : -2 ^ 15 ≤ round (signal T (sampleAngle offset) (0 + j * 96 + i)) ∧
      round (signal T (sampleAngle offset) (0 + j * 96 + i)) < 2 ^ 15 := by
    constructor
    · have : (-32768 : ℝ) ≤ round (signal T (sampleAngle offset) (0 + j * 96 + i)) := by
        linarith [hlevel.1]
      exact_mod_cast this
    · have : (round (signal T (sampleAngle offset) (0 + j * 96 + i)) : ℝ) < 32768 := by
        linarith [hlevel.2]
      exact_mod_cast this
  rw [rounded, Int16.toInt_ofInt_of_le hfit.1 hfit.2, abs_sub_comm]
  exact hround

theorem gamma_near_half :
    ‖toComplex (calculateGamma (toReals (packedRun (sincosTbl 12000) 96 ((List.range 2).map
        fun j i => (rounded 12000 1000 j i, rounded 12000 (500 * Complex.I) j i))))) -
      500 * Complex.I / 1000‖ ≤ 1 / 500 := by
  have hR : ‖(1000 : ℂ)‖ = 1000 := by norm_num
  have hS : ‖500 * Complex.I‖ = 500 := by norm_num
  have hlevel : errorOf (1 / 2) (1000 : ℂ) < ‖(1000 : ℂ)‖ := by
    rw [errorOf, hR]
    norm_num
  have hnear := @gamma_near 12000 2 (1 / 2) 0 (by decide) (by decide) (by decide) (by decide)
    (by decide) (fun j i => (rounded 12000 1000 j i, rounded 12000 (500 * Complex.I) j i)) 1000
    (500 * Complex.I) (sampled_rounded (by rw [hR]; norm_num))
    (sampled_rounded (by rw [hS]; norm_num)) hlevel
  refine hnear.trans ?_
  rw [errorOf, errorOf, norm_div, hR, hS]
  norm_num

end Measurement

end NanoVNA.DspAccuracy
