import Mathlib.Algebra.BigOperators.Ring.Finset
import Mathlib.Analysis.SpecialFunctions.Trigonometric.Basic
import Mathlib.RingTheory.RootsOfUnity.Complex
import NanoVNA.CalibrationComplex
import NanoVNA.RadixTwo

namespace NanoVNA.DspBackend

open NanoVNA.DeviceState
open NanoVNA.CalibrationComplex (toComplex div_components)
open NanoVNA.RadixTwo (geom_sum_root)

def audioSamplesCount : Board → Nat
  | .f072 => 48
  | .f303 => 96

def audioAdcFreq : Nat := 192000

section Code

variable {K A : Type} [Field K]

/-- The variable `w` of `generate_dsp_table` at a sample, in turns. -/
def phase (step : K) : Nat → K
  | 0 => step / 2
  | i + 1 => phase step i + step

/-- The sine and the cosine of an angle in turns, and what an assignment to the table stores of
either, are parameters. -/
def generateDspTable (vnaSincosf : K → K × K) (store : K → A) (offset : K) (i : Nat) : A × A :=
  let w := phase (offset / audioAdcFreq) i
  (store (vnaSincosf w).1, store (vnaSincosf w).2)

structure Accumulators (K : Type) where
  sampS : K
  sampC : K
  refS : K
  refC : K

def resetDspAccumerator [Zero A] : Accumulators A := ⟨0, 0, 0, 0⟩

variable [CommRing A]

/-- The body of the loop, at the pair `ref`, `smp` of the capture and the pair `sin`, `cos` of the
table. -/
def accumulate (div16 : A → A) (table capture : Nat → A × A) (s : Accumulators A) (i : Nat) :
    Accumulators A where
  sampS := s.sampS + div16 ((capture i).2 * (table i).1)
  sampC := s.sampC + div16 ((capture i).2 * (table i).2)
  refS := s.refS + div16 ((capture i).1 * (table i).1)
  refC := s.refC + div16 ((capture i).1 * (table i).2)

def bufferSums (div16 : A → A) (table capture : Nat → A × A) (count : Nat) : Accumulators A :=
  (List.range count).foldl (accumulate div16 table capture) ⟨0, 0, 0, 0⟩

/-- The scalar `dsp_process`. -/
def dspProcess (div16 : A → A) (table : Nat → A × A) (count : Nat) (acc : Accumulators A)
    (capture : Nat → A × A) : Accumulators A :=
  let s := bufferSums div16 table capture count
  ⟨acc.sampS + s.sampS, acc.sampC + s.sampC, acc.refS + s.refS, acc.refC + s.refC⟩

/-- `dsp_process` with the instructions for signal processing, which add every product to the
accumulator at once. -/
def dspProcessM4 (table : Nat → A × A) (count : Nat) (acc : Accumulators A)
    (capture : Nat → A × A) : Accumulators A :=
  (List.range count).foldl (accumulate id table capture) acc

def calculateGamma [DecidableEq K] (acc : Accumulators K) : Sample K :=
  let magSq := acc.refC * acc.refC + acc.refS * acc.refS
  if magSq = 0 then ⟨0, 0⟩
  else
    let invMag := 1 / magSq
    ⟨(acc.sampC * acc.refC + acc.sampS * acc.refS) * invMag,
      (acc.sampS * acc.refC - acc.sampC * acc.refS) * invMag⟩

end Code

section Sums

variable {A : Type} [CommRing A] (div16 : A → A) (table capture : Nat → A × A)

theorem foldl_accumulate (s : Accumulators A) (n : Nat) :
    (List.range n).foldl (accumulate div16 table capture) s =
      ⟨s.sampS + ∑ i ∈ Finset.range n, div16 ((capture i).2 * (table i).1),
        s.sampC + ∑ i ∈ Finset.range n, div16 ((capture i).2 * (table i).2),
        s.refS + ∑ i ∈ Finset.range n, div16 ((capture i).1 * (table i).1),
        s.refC + ∑ i ∈ Finset.range n, div16 ((capture i).1 * (table i).2)⟩ := by
  induction n with
  | zero => simp
  | succ n ih =>
    rw [List.range_succ, List.foldl_append, ih, List.foldl_cons, List.foldl_nil, accumulate]
    simp only [Finset.sum_range_succ, add_assoc]

end Sums

section Correlation

def sampOf (acc : Accumulators ℝ) : ℂ := ⟨acc.sampC, acc.sampS⟩

def refOf (acc : Accumulators ℝ) : ℂ := ⟨acc.refC, acc.refS⟩

/-- The samples of an input with the phasor `R`. -/
noncomputable def signal (R : ℂ) (w : ℝ) (n : ℤ) : ℝ :=
  ((starRingEnd ℂ) R * Complex.exp (Complex.I * (w * n))).re

theorem signal_eq (R : ℂ) (w : ℝ) (n : ℤ) :
    (signal R w n : ℂ) =
      ((starRingEnd ℂ) R * Complex.exp (Complex.I * (w * n)) +
        R * Complex.exp (-(Complex.I * (w * n)))) / 2 := by
  rw [signal, Complex.re_eq_add_conj, map_mul, Complex.conj_conj, ← Complex.exp_conj]
  simp

/-- Over a buffer of whole periods of the doubled frequency a signal and the table of the half
steps correlate to the phasor, turned by the phase between the two. -/
theorem sum_signal (R : ℂ) {w : ℝ} {count : Nat} (n : ℤ)
    (hperiod : Complex.exp (Complex.I * w) ^ count = 1)
    (hhalf : Complex.exp (Complex.I * w) ^ 2 ≠ 1) :
    ∑ i ∈ Finset.range count,
        (signal R w (n + i) : ℂ) * Complex.exp (Complex.I * (w * (i + 1 / 2))) =
      count / 2 * (R * Complex.exp (-(Complex.I * (w * (n - 1 / 2))))) := by
  have hgeom : ∑ i ∈ Finset.range count, (Complex.exp (Complex.I * w) ^ 2) ^ i = 0 :=
    geom_sum_root (by rw [← pow_mul, mul_comm 2 count, pow_mul, hperiod, one_pow]) hhalf
  have hterm : ∀ i : Nat,
      (signal R w (n + i) : ℂ) * Complex.exp (Complex.I * (w * (i + 1 / 2))) =
        (starRingEnd ℂ) R * Complex.exp (Complex.I * (w * (n + 1 / 2))) / 2 *
            (Complex.exp (Complex.I * w) ^ 2) ^ i +
          R * Complex.exp (-(Complex.I * (w * (n - 1 / 2)))) / 2 := by
    intro i
    have hsum : Complex.exp (Complex.I * (w * (n + i : ℤ))) *
        Complex.exp (Complex.I * (w * (i + 1 / 2))) =
        Complex.exp (Complex.I * (w * (n + 1 / 2))) * (Complex.exp (Complex.I * w) ^ 2) ^ i := by
      rw [← pow_mul, ← Complex.exp_nat_mul, ← Complex.exp_add, ← Complex.exp_add]
      congr 1
      push_cast
      ring
    have hdiff : Complex.exp (-(Complex.I * (w * (n + i : ℤ)))) *
        Complex.exp (Complex.I * (w * (i + 1 / 2))) =
        Complex.exp (-(Complex.I * (w * (n - 1 / 2)))) := by
      rw [← Complex.exp_add]
      congr 1
      push_cast
      ring
    rw [signal_eq]
    linear_combination (starRingEnd ℂ) R / 2 * hsum + R / 2 * hdiff
  rw [Finset.sum_congr rfl fun i _ => hterm i, Finset.sum_add_distrib, ← Finset.mul_sum, hgeom,
    Finset.sum_const, Finset.card_range, nsmul_eq_mul]
  ring

end Correlation

section Gamma

theorem calculateGamma_eq {acc : Accumulators ℝ} (h : refOf acc ≠ 0) :
    toComplex (calculateGamma acc) = sampOf acc / refOf acc := by
  have hmag : acc.refC * acc.refC + acc.refS * acc.refS ≠ 0 := by
    intro h0
    exact h (Complex.normSq_eq_zero.mp ((Complex.normSq_apply _).trans h0))
  rw [div_components, calculateGamma, if_neg hmag]
  apply Complex.ext
  · exact mul_one_div _ _
  · exact mul_one_div _ _

theorem phase_eq {K : Type} [Field K] [CharZero K] (step : K) (i : Nat) :
    phase step i = step * (i + 1 / 2) := by
  induction i with
  | zero =>
    rw [phase]
    push_cast
    ring
  | succ i ih =>
    rw [phase, ih]
    push_cast
    ring

theorem dspProcess_eq {A : Type} [CommRing A] (div16 : A → A) (table capture : Nat → A × A)
    (count : Nat) (acc : Accumulators A) :
    dspProcess div16 table count acc capture =
      (List.range count).foldl (accumulate div16 table capture) acc := by
  simp only [dspProcess, bufferSums, foldl_accumulate, zero_add]

noncomputable def sincosTurns (w : ℝ) : ℝ × ℝ :=
  (Real.sin (2 * Real.pi * w), Real.cos (2 * Real.pi * w))

noncomputable def sampleAngle (offset : Nat) : ℝ := 2 * Real.pi * offset / audioAdcFreq

noncomputable def exactTable (amplitude : ℝ) (offset : Nat) : Nat → ℝ × ℝ :=
  generateDspTable sincosTurns (amplitude * ·) offset

noncomputable def buffer (R S : ℂ) (w : ℝ) (n : ℤ) (i : Nat) : ℝ × ℝ :=
  (signal R w (n + i), signal S w (n + i))

theorem exactTable_eq (amplitude : ℝ) (offset i : Nat) :
    exactTable amplitude offset i =
      (amplitude * Real.sin (sampleAngle offset * (i + 1 / 2)),
        amplitude * Real.cos (sampleAngle offset * (i + 1 / 2))) := by
  have hangle : 2 * Real.pi * ((offset : ℝ) / audioAdcFreq * (i + 1 / 2)) =
      sampleAngle offset * (i + 1 / 2) := by
    rw [sampleAngle]
    ring
  simp only [exactTable, generateDspTable, phase_eq, sincosTurns, hangle]

variable (b : Board) {offset : Nat}

theorem exp_period (hmul : audioAdcFreq / audioSamplesCount b ∣ offset) :
    Complex.exp (Complex.I * sampleAngle offset) ^ audioSamplesCount b = 1 := by
  obtain ⟨m, rfl⟩ := hmul
  have hfreq : (audioSamplesCount b : ℂ) * (audioAdcFreq / audioSamplesCount b : Nat) =
      audioAdcFreq := by
    cases b <;> norm_num [audioSamplesCount, audioAdcFreq]
  have hne : (audioAdcFreq : ℂ) ≠ 0 := by norm_num [audioAdcFreq]
  rw [← Complex.exp_nat_mul, Complex.exp_eq_one_iff]
  refine ⟨m, ?_⟩
  rw [sampleAngle]
  push_cast
  field_simp
  rw [← hfreq]
  ring

theorem exp_half (hpos : 0 < offset) (hnyquist : offset < audioAdcFreq / 2) :
    Complex.exp (Complex.I * sampleAngle offset) ^ 2 ≠ 1 := by
  rw [← Complex.exp_nat_mul]
  intro h
  obtain ⟨n, hn⟩ := Complex.exp_eq_one_iff.mp h
  have hne : (audioAdcFreq : ℂ) ≠ 0 := by norm_num [audioAdcFreq]
  have hturns : (2 * offset : ℂ) = n * audioAdcFreq := by
    rw [sampleAngle] at hn
    push_cast at hn
    field_simp at hn
    linear_combination hn
  have hint : (2 * offset : ℤ) = n * audioAdcFreq := by exact_mod_cast hturns
  have hfreq : (audioAdcFreq : ℤ) = 192000 := rfl
  have hhalf : audioAdcFreq / 2 = 96000 := rfl
  rw [hfreq] at hint
  omega

noncomputable def gain (amplitude c : ℝ) (offset : Nat) (n : ℤ) : ℂ :=
  c * amplitude * (audioSamplesCount b / 2 *
    Complex.exp (-(Complex.I * (sampleAngle offset * (n - 1 / 2)))))

theorem buffer_sums (hmul : audioAdcFreq / audioSamplesCount b ∣ offset) (hpos : 0 < offset)
    (hnyquist : offset < audioAdcFreq / 2) (amplitude c : ℝ) (R S : ℂ) (n : ℤ)
    (acc : Accumulators ℝ) :
    let acc' := (List.range (audioSamplesCount b)).foldl
      (accumulate (c * ·) (exactTable amplitude offset) (buffer R S (sampleAngle offset) n)) acc
    sampOf acc' = sampOf acc + gain b amplitude c offset n * S ∧
      refOf acc' = refOf acc + gain b amplitude c offset n * R := by
  have hsum := fun T : ℂ => sum_signal T n (exp_period b hmul) (exp_half hpos hnyquist)
  have hcomplex : ∀ T : ℂ,
      (⟨∑ i ∈ Finset.range (audioSamplesCount b), c * (signal T (sampleAngle offset) (n + i) *
          (amplitude * Real.cos (sampleAngle offset * (i + 1 / 2)))),
        ∑ i ∈ Finset.range (audioSamplesCount b), c * (signal T (sampleAngle offset) (n + i) *
          (amplitude * Real.sin (sampleAngle offset * (i + 1 / 2))))⟩ : ℂ) =
        gain b amplitude c offset n * T := by
    intro T
    have hexp : ∀ i : Nat, Complex.exp (Complex.I * (sampleAngle offset * (i + 1 / 2))) =
        Complex.exp ((sampleAngle offset * (i + 1 / 2) : ℝ) * Complex.I) := by
      intro i
      congr 1
      push_cast
      ring
    have hgain : gain b amplitude c offset n * T = ((c * amplitude : ℝ) : ℂ) *
        ∑ i ∈ Finset.range (audioSamplesCount b), (signal T (sampleAngle offset) (n + i) : ℂ) *
          Complex.exp ((sampleAngle offset * (i + 1 / 2) : ℝ) * Complex.I) := by
      have hT := hsum T
      simp only [hexp] at hT
      rw [hT, gain]
      push_cast
      ring
    rw [hgain]
    apply Complex.ext <;> dsimp only
    · rw [Complex.re_ofReal_mul, Complex.re_sum, Finset.mul_sum]
      refine Finset.sum_congr rfl fun i _ => ?_
      rw [Complex.re_ofReal_mul, Complex.exp_ofReal_mul_I_re]
      ring
    · rw [Complex.im_ofReal_mul, Complex.im_sum, Finset.mul_sum]
      refine Finset.sum_congr rfl fun i _ => ?_
      rw [Complex.im_ofReal_mul, Complex.exp_ofReal_mul_I_im]
      ring
  simp only [foldl_accumulate, exactTable_eq, buffer, ← hcomplex]
  constructor <;> apply Complex.ext <;> rfl

theorem gain_add_buffer (hmul : audioAdcFreq / audioSamplesCount b ∣ offset) (amplitude c : ℝ)
    (n : ℤ) (j : Nat) :
    gain b amplitude c offset (n + j * audioSamplesCount b) = gain b amplitude c offset n := by
  have hturn : Complex.exp (-(Complex.I * (sampleAngle offset *
      ((n + j * audioSamplesCount b : ℤ) - 1 / 2)))) =
      Complex.exp (-(Complex.I * (sampleAngle offset * (n - 1 / 2)))) := by
    have hone : Complex.exp (-(j * (audioSamplesCount b * (Complex.I * sampleAngle offset)))) =
        1 := by
      rw [Complex.exp_neg, Complex.exp_nat_mul, Complex.exp_nat_mul, exp_period b hmul, one_pow,
        inv_one]
    rw [← mul_one (Complex.exp (-(Complex.I * (sampleAngle offset * (n - 1 / 2))))), ← hone,
      ← Complex.exp_add]
    congr 1
    push_cast
    ring
  rw [gain, gain, hturn]

/-- Any number of consecutive buffers: the accumulators hold the two phasors at one gain. -/
theorem run_sums (hmul : audioAdcFreq / audioSamplesCount b ∣ offset) (hpos : 0 < offset)
    (hnyquist : offset < audioAdcFreq / 2) (amplitude c : ℝ) (R S : ℂ) (n : ℤ) (buffers : Nat) :
    let acc := (List.range buffers).foldl
      (fun acc (j : Nat) => (List.range (audioSamplesCount b)).foldl
        (accumulate (c * ·) (exactTable amplitude offset)
          (buffer R S (sampleAngle offset) (n + j * audioSamplesCount b))) acc)
      resetDspAccumerator
    sampOf acc = buffers * gain b amplitude c offset n * S ∧
      refOf acc = buffers * gain b amplitude c offset n * R := by
  induction buffers with
  | zero =>
    simp only [List.range_zero, List.foldl_nil, Nat.cast_zero, zero_mul]
    exact ⟨rfl, rfl⟩
  | succ buffers ih =>
    have hstep := buffer_sums b hmul hpos hnyquist amplitude c R S
      (n + buffers * audioSamplesCount b)
    simp only [List.range_succ, List.foldl_append, List.foldl_cons, List.foldl_nil] at ih ⊢
    rw [(hstep _).1, (hstep _).2, ih.1, ih.2, gain_add_buffer b hmul]
    push_cast
    constructor <;> ring

theorem gain_ne_zero {amplitude c : ℝ} (hamplitude : amplitude ≠ 0) (hc : c ≠ 0) (n : ℤ) :
    gain b amplitude c offset n ≠ 0 := by
  have hcount : (audioSamplesCount b : ℂ) ≠ 0 := by cases b <;> norm_num [audioSamplesCount]
  have h1 : (c : ℂ) ≠ 0 := by exact_mod_cast hc
  have h2 : (amplitude : ℂ) ≠ 0 := by exact_mod_cast hamplitude
  exact mul_ne_zero (mul_ne_zero h1 h2)
    (mul_ne_zero (div_ne_zero hcount two_ne_zero) (Complex.exp_ne_zero _))

theorem gamma_of_run (hmul : audioAdcFreq / audioSamplesCount b ∣ offset) (hpos : 0 < offset)
    (hnyquist : offset < audioAdcFreq / 2) {amplitude c : ℝ} (hamplitude : amplitude ≠ 0)
    (hc : c ≠ 0) {R : ℂ} (hR : R ≠ 0) (S : ℂ) (n : ℤ) {buffers : Nat} (hbuffers : 0 < buffers) :
    toComplex (calculateGamma ((List.range buffers).foldl
      (fun acc (j : Nat) => (List.range (audioSamplesCount b)).foldl
        (accumulate (c * ·) (exactTable amplitude offset)
          (buffer R S (sampleAngle offset) (n + j * audioSamplesCount b))) acc)
      resetDspAccumerator)) = S / R := by
  obtain ⟨hsamp, href⟩ := run_sums b hmul hpos hnyquist amplitude c R S n buffers
  have hfactor : (buffers : ℂ) * gain b amplitude c offset n ≠ 0 :=
    mul_ne_zero (by exact_mod_cast hbuffers.ne') (gain_ne_zero b hamplitude hc n)
  rw [calculateGamma_eq (href ▸ mul_ne_zero hfactor hR), hsamp, href,
    mul_div_mul_left _ _ hfactor]

/-- For both forms of `dsp_process`: the ratio of two sampled phasors is measured exactly, over any
whole number of buffers from any sample on. -/
theorem calculateGamma_exact (hmul : audioAdcFreq / audioSamplesCount b ∣ offset)
    (hpos : 0 < offset) (hnyquist : offset < audioAdcFreq / 2) {amplitude : ℝ}
    (hamplitude : 0 < amplitude) {R : ℂ} (hR : R ≠ 0) (S : ℂ) (n : ℤ) {buffers : Nat}
    (hbuffers : 0 < buffers) :
    let captured := fun j : Nat =>
      buffer R S (sampleAngle offset) (n + j * audioSamplesCount b)
    toComplex (calculateGamma ((List.range buffers).foldl
        (fun acc j => dspProcess (· / 16) (exactTable amplitude offset) (audioSamplesCount b) acc
          (captured j)) resetDspAccumerator)) = S / R ∧
      toComplex (calculateGamma ((List.range buffers).foldl
        (fun acc j => dspProcessM4 (exactTable amplitude offset) (audioSamplesCount b) acc
          (captured j)) resetDspAccumerator)) = S / R := by
  have hdiv : (fun x : ℝ => x / 16) = ((1 / 16 : ℝ) * ·) := funext fun x => by ring
  have hid : (id : ℝ → ℝ) = (1 * ·) := funext fun x => (one_mul x).symm
  constructor
  · simp only [dspProcess_eq, hdiv]
    exact gamma_of_run b hmul hpos hnyquist hamplitude.ne' (by norm_num) hR S n hbuffers
  · simp only [dspProcessM4, hid]
    exact gamma_of_run b hmul hpos hnyquist hamplitude.ne' one_ne_zero hR S n hbuffers

theorem calculateGamma_exact_default :
    toComplex (calculateGamma ((List.range 1).foldl
      (fun acc (j : Nat) => dspProcess (· / 16) (exactTable 32700 12000) 48 acc
        (buffer 1 Complex.I (sampleAngle 12000) (0 + j * 48))) resetDspAccumerator)) =
      Complex.I / 1 :=
  (calculateGamma_exact .f072 (by decide) (by decide) (by decide) (by norm_num) one_ne_zero
    Complex.I 0 Nat.one_pos).1

end Gamma

end NanoVNA.DspBackend
