import NanoVNA.FastFourier
import NanoVNA.KaiserWindow
import NanoVNA.SweepGrid

namespace NanoVNA.TimeDomain

open NanoVNA.DeviceState NanoVNA.FastFourier NanoVNA.KaiserWindow
open NanoVNA.SweepGrid (clampPoints clampPoints_min)
open NanoVNA.CalibrationComplex (toComplex)

/-! ### The mode word -/

def tdFunc : UInt16 := 0b00110

def tdFuncBandpass : UInt16 := 0b00000

def tdFuncLowpassImpulse : UInt16 := 0b00010

def tdFuncLowpassStep : UInt16 := 0b00100

def tdWindow : UInt16 := 0b11000

def tdWindowNormal : UInt16 := 0b00000

def tdWindowMinimum : UInt16 := 0b01000

def tdWindowMaximum : UInt16 := 0b10000

/-- What the transform reads and keeps: the mode and the points of the sweep, the two static
variables of the function, and the measured points of both channels. -/
structure State (K : Type) where
  propsMode : UInt16
  sweepPoints : Nat
  tdCache : UInt16
  windowScale : K
  measured : Nat → Nat → Sample K

section Window

variable (mode : UInt16) (points : Nat)

def domainFunc : UInt16 := mode &&& tdFunc

def domainWindow : UInt16 := mode &&& tdWindow

def isLowpass : Bool :=
  domainFunc mode = tdFuncLowpassImpulse || domainFunc mode = tdFuncLowpassStep

def offset : Nat := if isLowpass mode then points else 0

def windowSize : Nat := (points + offset mode points) % 65536

def beta : Nat :=
  if domainWindow mode = tdWindowNormal then 6
  else if domainWindow mode = tdWindowMaximum then 13
  else 0

def tdCheck : UInt16 := (mode &&& (tdWindow ||| tdFunc)) ||| UInt16.ofNat (points <<< 5)

variable {K : Type} [Field K]

def weight (i : Nat) : K :=
  kaiserWindowExt (UInt32.ofNat (i + offset mode points)) (UInt32.ofNat (windowSize mode points))
    (UInt16.ofNat (beta mode))

def windowSum (b : Board) : K :=
  if domainFunc mode = tdFuncLowpassStep then
    fftSize b * besselI0Ext (((beta mode * beta mode : Nat) : K) / 4)
  else
    let sum := (List.range points).foldl (fun sum i => sum + weight mode points i) 0
    if domainFunc mode = tdFuncLowpassImpulse then sum * 2 else sum

end Window

section Code

variable {K : Type} [Field K] (b : Board) (table : Nat → K)

def refreshWindow (s : State K) : State K :=
  if s.tdCache ≠ tdCheck s.propsMode s.sweepPoints then
    { s with
      tdCache := tdCheck s.propsMode s.sweepPoints
      windowScale := 1 / windowSum s.propsMode s.sweepPoints b }
  else s

/-- The windowed points of a channel, with zeros up to the size of the transform. -/
def windowed (s : State K) (ch i : Nat) : Sample K :=
  let w := weight s.propsMode s.sweepPoints i * s.windowScale
  if i < s.sweepPoints then ⟨(s.measured ch i).re * w, (s.measured ch i).im * w⟩ else ⟨0, 0⟩

def mirrorStep (tmp : Nat → Sample K) (i : Nat) : Nat → Sample K :=
  Function.update tmp (fftSize b - i) ⟨(tmp i).re, -(tmp i).im⟩

def mirror (points : Nat) (tmp : Nat → Sample K) : Nat → Sample K :=
  (List.range' 1 (points - 1)).foldl (mirrorStep b) tmp

def realPart (points : Nat) (tmp : Nat → Sample K) (i : Nat) : Sample K :=
  if i < points then ⟨(tmp i).re, 0⟩ else tmp i

def accumulateStep (tmp : Nat → Sample K) (i : Nat) : Nat → Sample K :=
  Function.update tmp i ⟨(tmp i).re + (tmp (i - 1)).re, (tmp i).im⟩

def accumulate (points : Nat) (tmp : Nat → Sample K) : Nat → Sample K :=
  (List.range' 1 (points - 1)).foldl accumulateStep tmp

/-- What is transformed: a low-pass mode takes the points for one half of a real signal's
spectrum. -/
def prepared (s : State K) (ch : Nat) : Nat → Sample K :=
  if isLowpass s.propsMode then mirror b s.sweepPoints (windowed s ch) else windowed s ch

def finished (mode : UInt16) (points : Nat) (tmp : Nat → Sample K) : Nat → Sample K :=
  let tmp := if isLowpass mode then realPart points tmp else tmp
  if domainFunc mode = tdFuncLowpassStep then accumulate points tmp else tmp

/-- The body of the loop over the channels; the buffer is scratch memory, all of it written
before it is read. -/
def transformChannel (s : State K) (ch : Nat) : Option (State K) := do
  let tmp ← fft b table true (prepared b s ch)
  some { s with
    measured := Function.update s.measured ch fun p =>
      if p < sweepPointsMax b then finished s.propsMode s.sweepPoints tmp p
      else s.measured ch p }

/-- `app_measurement_transform_domain`; no value when a read misses the table of sines. -/
def transformDomain (s : State K) (chMask : Nat) : Option (State K) :=
  (List.range 2).foldlM
    (fun s ch => if chMask.testBit ch then transformChannel b table s ch else some s)
    (refreshWindow b s)

end Code

section Cache

/-- The key keeps the window, the function and the points apart. -/
theorem tdCheck_toNat (mode : UInt16) {points : Nat} (h : points < 2048) :
    (tdCheck mode points).toNat = points * 32 + (mode &&& (tdWindow ||| tdFunc)).toNat := by
  have hlow : (mode &&& (tdWindow ||| tdFunc)).toNat < 2 ^ 5 := by
    rw [UInt16.toNat_and]
    exact Nat.and_lt_two_pow _ (by decide)
  have hhigh : (UInt16.ofNat (points <<< 5)).toNat = points <<< 5 := by
    rw [UInt16.toNat_ofNat', Nat.shiftLeft_eq]
    omega
  rw [tdCheck, UInt16.toNat_or, hhigh, Nat.or_comm, ← Nat.shiftLeft_add_eq_or_of_lt hlow,
    Nat.shiftLeft_eq]

theorem tdCheck_injective {mode mode' : UInt16} {points points' : Nat} (h : points < 2048)
    (h' : points' < 2048) (heq : tdCheck mode points = tdCheck mode' points') :
    mode &&& (tdWindow ||| tdFunc) = mode' &&& (tdWindow ||| tdFunc) ∧ points = points' := by
  have hlow (mode : UInt16) : (mode &&& (tdWindow ||| tdFunc)).toNat < 2 ^ 5 := by
    rw [UInt16.toNat_and]
    exact Nat.and_lt_two_pow _ (by decide)
  have hnat := congrArg UInt16.toNat heq
  rw [tdCheck_toNat mode h, tdCheck_toNat mode' h'] at hnat
  have := hlow mode
  have := hlow mode'
  exact ⟨UInt16.toNat_inj.mp (by omega), by omega⟩

theorem domainFunc_masked (mode : UInt16) :
    domainFunc mode = domainFunc (mode &&& (tdWindow ||| tdFunc)) := by
  rw [domainFunc, domainFunc, UInt16.and_assoc]
  rfl

theorem domainWindow_masked (mode : UInt16) :
    domainWindow mode = domainWindow (mode &&& (tdWindow ||| tdFunc)) := by
  rw [domainWindow, domainWindow, UInt16.and_assoc]
  rfl

variable {K : Type} [Field K] (b : Board)

theorem windowSum_masked (mode : UInt16) (points : Nat) :
    (windowSum mode points b : K) =
      windowSum (mode &&& (tdWindow ||| tdFunc)) points b := by
  have hbeta : beta mode = beta (mode &&& (tdWindow ||| tdFunc)) := by
    rw [beta, domainWindow_masked, ← beta]
  have hlow : isLowpass mode = isLowpass (mode &&& (tdWindow ||| tdFunc)) := by
    rw [isLowpass, domainFunc_masked, ← isLowpass]
  have hweight : weight (K := K) mode points = weight (mode &&& (tdWindow ||| tdFunc)) points := by
    funext i
    rw [weight, windowSize, offset, hbeta, hlow]
    rfl
  rw [windowSum, windowSum, hbeta, hweight, ← domainFunc_masked]

/-- Whatever mode the key stands for, the scale is that mode's. -/
def Coherent (s : State K) : Prop :=
  ∀ mode points, 0 < points → points < 2048 → s.tdCache = tdCheck mode points →
    s.windowScale = 1 / windowSum mode points b

theorem coherent_refreshWindow {s : State K} (h : Coherent b s) (hpoints : s.sweepPoints < 2048) :
    Coherent b (refreshWindow b s) := by
  unfold refreshWindow
  split_ifs with hnew
  · intro mode points hpos hlt hkey
    obtain ⟨hmode, hsame⟩ := tdCheck_injective hpoints hlt hkey
    simp only
    rw [windowSum_masked b s.propsMode, windowSum_masked b mode, hmode, hsame]
  · exact h

theorem refreshWindow_scale {s : State K} (h : Coherent b s) (hpos : 0 < s.sweepPoints)
    (hlt : s.sweepPoints < 2048) :
    (refreshWindow b s).windowScale = 1 / windowSum s.propsMode s.sweepPoints b := by
  unfold refreshWindow
  split_ifs with hnew
  · rfl
  · exact h s.propsMode s.sweepPoints hpos hlt (not_not.mp hnew)

@[simp] theorem refreshWindow_propsMode (s : State K) :
    (refreshWindow b s).propsMode = s.propsMode := by
  unfold refreshWindow
  split_ifs <;> rfl

@[simp] theorem refreshWindow_sweepPoints (s : State K) :
    (refreshWindow b s).sweepPoints = s.sweepPoints := by
  unfold refreshWindow
  split_ifs <;> rfl

@[simp] theorem refreshWindow_measured (s : State K) :
    (refreshWindow b s).measured = s.measured := by
  unfold refreshWindow
  split_ifs <;> rfl

end Cache

section Buffer

variable {K : Type} [Field K] (b : Board)

/-- While the two halves do not meet, every entry of the upper one mirrors its own source. -/
theorem foldl_mirrorStep (tmp : Nat → Sample K) {count : Nat} (hsize : 2 * count < fftSize b)
    (i : Nat) :
    (List.range' 1 count).foldl (mirrorStep b) tmp i =
      if fftSize b - count ≤ i ∧ i < fftSize b then
        ⟨(tmp (fftSize b - i)).re, -(tmp (fftSize b - i)).im⟩
      else tmp i := by
  induction count generalizing i with
  | zero => rw [if_neg (by omega)]; rfl
  | succ count ih =>
    rw [List.range'_concat, List.foldl_append, List.foldl_cons, List.foldl_nil, mirrorStep,
      Function.update_apply, ih (by omega), ih (by omega)]
    split_ifs <;> grind

theorem foldl_accumulateStep (tmp : Nat → Sample K) (count i : Nat) :
    (List.range' 1 count).foldl accumulateStep tmp i =
      if i ≤ count then ⟨∑ q ∈ Finset.range (i + 1), (tmp q).re, (tmp i).im⟩ else tmp i := by
  induction count generalizing i with
  | zero =>
    by_cases hi : i = 0
    · subst hi
      simp
    · simp [hi]
  | succ count ih =>
    rw [List.range'_concat, List.foldl_append, List.foldl_cons, List.foldl_nil, accumulateStep,
      Function.update_apply, ih, ih, ih]
    by_cases hi : i = 1 + 1 * count
    · have hprevious : 1 + 1 * count - 1 + 1 = 1 + 1 * count := by omega
      subst hi
      rw [if_pos rfl, if_neg (by omega), if_pos (by omega), if_pos (by omega), hprevious,
        Finset.sum_range_succ _ (1 + 1 * count), add_comm (tmp _).re]
    · rw [if_neg hi]
      congr 1
      exact propext ⟨by omega, by omega⟩

end Buffer

section Response

variable (b : Board)

theorem sum_ends {N p : Nat} (hp : 0 < p) (hsize : 2 * p ≤ N + 1) (f : Nat → ℂ)
    (hzero : ∀ i, p ≤ i → i < N + 1 - p → f i = 0) :
    ∑ i ∈ Finset.range N, f i = f 0 + ∑ i ∈ Finset.Ico 1 p, (f i + f (N - i)) := by
  have hmiddle : ∑ i ∈ Finset.Ico p (N + 1 - p), f i = 0 :=
    Finset.sum_eq_zero fun i hi => hzero i (Finset.mem_Ico.mp hi).1 (Finset.mem_Ico.mp hi).2
  have hupper : ∑ i ∈ Finset.Ico 1 p, f (N - i) = ∑ i ∈ Finset.Ico (N + 1 - p) N, f i :=
    Finset.sum_Ico_reflect f 1 (by omega)
  rw [Finset.sum_add_distrib, hupper, Finset.range_eq_Ico,
    ← Finset.sum_Ico_consecutive f (Nat.zero_le 1) (by omega),
    ← Finset.sum_Ico_consecutive f hp (by omega : p ≤ N),
    ← Finset.sum_Ico_consecutive f (by omega : p ≤ N + 1 - p) (by omega), hmiddle]
  simp

noncomputable def wave (m p : Nat) : ℂ :=
  Complex.exp (2 * Real.pi * Complex.I * (m * p) / fftSize b)

theorem wave_mirror {m : Nat} (p : Nat) (hm : m ≤ fftSize b) :
    wave b (fftSize b - m) p = (starRingEnd ℂ) (wave b m p) := by
  have hsize : (fftSize b : ℂ) ≠ 0 := by exact_mod_cast fftSize_ne_zero b
  have hangle : 2 * Real.pi * Complex.I * (((fftSize b - m : Nat) : ℂ) * p) / fftSize b =
      p * (2 * Real.pi * Complex.I) + -(2 * Real.pi * Complex.I * (m * p) / fftSize b) := by
    rw [Nat.cast_sub hm]
    field_simp
    ring
  have hconj : (starRingEnd ℂ) (2 * Real.pi * Complex.I * (m * p) / fftSize b) =
      -(2 * Real.pi * Complex.I * (m * p) / fftSize b) := by
    rw [map_div₀, map_mul, map_mul, map_mul, map_mul, Complex.conj_I, Complex.conj_natCast,
      Complex.conj_natCast, Complex.conj_natCast, Complex.conj_ofReal, map_ofNat]
    ring
  rw [wave, hangle, Complex.exp_add, Complex.exp_nat_mul_two_pi_mul_I, one_mul, wave,
    ← Complex.exp_conj, hconj]

noncomputable def spectrum (s : State ℝ) (ch p : Nat) : ℂ :=
  ∑ m ∈ Finset.range s.sweepPoints, ((weight s.propsMode s.sweepPoints m : ℝ) : ℂ) *
    toComplex (s.measured ch m) * wave b m p

/-- The transform of the points and of their mirror images, in which the first point counts
once. -/
noncomputable def impulse (s : State ℝ) (ch p : Nat) : ℝ :=
  2 * (spectrum b s ch p).re - weight s.propsMode s.sweepPoints 0 * (s.measured ch 0).re

noncomputable def windowTotal (s : State ℝ) : ℝ :=
  ∑ m ∈ Finset.range s.sweepPoints, weight s.propsMode s.sweepPoints m

noncomputable def response (s : State ℝ) (ch p : Nat) : ℂ :=
  if domainFunc s.propsMode = tdFuncLowpassStep then
    ((∑ q ∈ Finset.range (p + 1), impulse b s ch q) /
      (fftSize b * besselI0Ext (((beta s.propsMode * beta s.propsMode : Nat) : ℝ) / 4)) : ℝ)
  else if domainFunc s.propsMode = tdFuncLowpassImpulse then
    (impulse b s ch p / (2 * windowTotal s) : ℝ)
  else spectrum b s ch p / windowTotal s

theorem toComplex_windowed (s : State ℝ) (ch m : Nat) :
    toComplex (windowed s ch m) =
      if m < s.sweepPoints then
        s.windowScale *
          (((weight s.propsMode s.sweepPoints m : ℝ) : ℂ) * toComplex (s.measured ch m))
      else 0 := by
  rw [windowed]
  split_ifs
  · apply Complex.ext <;> simp [toComplex] <;> ring
  · rfl

theorem sum_windowed (s : State ℝ) (ch p : Nat) :
    ∑ m ∈ Finset.range s.sweepPoints, toComplex (windowed s ch m) * wave b m p =
      s.windowScale * spectrum b s ch p := by
  rw [spectrum, Finset.mul_sum]
  refine Finset.sum_congr rfl fun m hm => ?_
  rw [toComplex_windowed, if_pos (Finset.mem_range.mp hm)]
  ring

theorem fourierSum_eq (tmp : Nat → Sample ℝ) (p : Nat) :
    fourierSum b true tmp p =
      ∑ m ∈ Finset.range (fftSize b), toComplex (tmp m) * wave b m p :=
  Finset.sum_congr rfl fun m _ => by rw [if_pos rfl, one_mul, wave]

theorem fourierSum_windowed (s : State ℝ) (ch p : Nat) (hsize : s.sweepPoints ≤ fftSize b) :
    fourierSum b true (windowed s ch) p = s.windowScale * spectrum b s ch p := by
  rw [fourierSum_eq, ← sum_windowed, ← Finset.sum_subset (Finset.range_mono hsize)]
  intro m _ hm
  rw [toComplex_windowed, if_neg fun h => hm (Finset.mem_range.mpr h), zero_mul]

theorem mirror_apply (points : Nat) (tmp : Nat → Sample ℝ) (hpos : 0 < points)
    (hsize : 2 * points ≤ fftSize b + 1) (i : Nat) :
    mirror b points tmp i =
      if fftSize b + 1 - points ≤ i ∧ i < fftSize b then
        ⟨(tmp (fftSize b - i)).re, -(tmp (fftSize b - i)).im⟩
      else tmp i := by
  have hfirst : fftSize b - (points - 1) = fftSize b + 1 - points := by omega
  rw [mirror, foldl_mirrorStep b tmp (by omega), hfirst]

theorem fourierSum_mirror (s : State ℝ) (ch p : Nat) (hpos : 0 < s.sweepPoints)
    (hsize : 2 * s.sweepPoints ≤ fftSize b) :
    (fourierSum b true (mirror b s.sweepPoints (windowed s ch)) p).re =
      s.windowScale * impulse b s ch p := by
  set points := s.sweepPoints with hpoints
  set tmp := windowed s ch with htmp
  set f : Nat → ℂ := fun m => toComplex (mirror b points tmp m) * wave b m p with hf
  have hsum : fourierSum b true (mirror b points tmp) p = ∑ m ∈ Finset.range (fftSize b), f m :=
    fourierSum_eq b _ p
  have hlower : ∀ m < points, f m = toComplex (tmp m) * wave b m p := by
    intro m hm
    rw [hf]
    simp only
    rw [mirror_apply b points tmp hpos (by omega), if_neg (by omega)]
  have hzero : ∀ i, points ≤ i → i < fftSize b + 1 - points → f i = 0 := by
    intro i hi hlt
    rw [hf]
    simp only
    rw [mirror_apply b points tmp hpos (by omega), if_neg (by omega), htmp, toComplex_windowed,
      if_neg (by omega), zero_mul]
  have hupper : ∀ m ∈ Finset.Ico 1 points, f (fftSize b - m) = (starRingEnd ℂ) (f m) := by
    intro m hm
    obtain ⟨hone, hlt⟩ := Finset.mem_Ico.mp hm
    have hback : fftSize b - (fftSize b - m) = m := by omega
    rw [hlower m hlt, map_mul, ← wave_mirror b p (by omega), hf]
    simp only
    rw [mirror_apply b points tmp hpos (by omega), if_pos ⟨by omega, by omega⟩, hback]
    rfl
  have hpairs : (∑ m ∈ Finset.Ico 1 points, (f m + f (fftSize b - m))).re =
      2 * (∑ m ∈ Finset.Ico 1 points, f m).re := by
    rw [Complex.re_sum, Complex.re_sum, Finset.mul_sum]
    refine Finset.sum_congr rfl fun m hm => ?_
    rw [hupper m hm, Complex.add_conj, Complex.ofReal_re]
  have hfirst : f 0 = toComplex (tmp 0) := by
    rw [hlower 0 hpos]
    simp [wave]
  have hall : f 0 + ∑ m ∈ Finset.Ico 1 points, f m = s.windowScale * spectrum b s ch p := by
    rw [← sum_windowed, ← Finset.sum_range_eq_add_Ico _ hpos]
    exact Finset.sum_congr rfl fun m hm => hlower m (Finset.mem_range.mp hm)
  have hre := congrArg Complex.re hall
  have hstart : (toComplex (tmp 0)).re =
      s.windowScale * (weight s.propsMode points 0 * (s.measured ch 0).re) := by
    rw [htmp, toComplex_windowed, if_pos hpos, Complex.re_ofReal_mul, Complex.re_ofReal_mul]
    rfl
  rw [Complex.add_re, Complex.re_ofReal_mul, hfirst, hstart] at hre
  rw [hsum, sum_ends hpos (by omega) f hzero, Complex.add_re, hpairs, hfirst, hstart, impulse]
  linarith

theorem foldl_sum {K : Type} [Field K] (f : Nat → K) (n : Nat) :
    (List.range n).foldl (fun sum i => sum + f i) 0 = ∑ i ∈ Finset.range n, f i := by
  induction n with
  | zero => rfl
  | succ n ih => rw [List.range_succ, List.foldl_append, ih, Finset.sum_range_succ]; rfl

theorem two_points_le {points : Nat} (h : points ≤ sweepPointsMax b) :
    2 * points ≤ fftSize b := by
  cases b with
  | f072 => exact (Nat.mul_le_mul_left 2 h).trans (by decide)
  | f303 => exact (Nat.mul_le_mul_left 2 h).trans (by decide)

theorem finished_step {mode : UInt16} {points p : Nat} (hstep : domainFunc mode = tdFuncLowpassStep)
    (hp : p < points) (tmp : Nat → Sample ℝ) :
    finished mode points tmp p = ⟨∑ q ∈ Finset.range (p + 1), (tmp q).re, 0⟩ := by
  have hlow : isLowpass mode = true := by simp [isLowpass, hstep]
  have hsum : ∑ q ∈ Finset.range (p + 1), (realPart points tmp q).re =
      ∑ q ∈ Finset.range (p + 1), (tmp q).re :=
    Finset.sum_congr rfl fun q hq => by
      have := Finset.mem_range.mp hq
      rw [realPart, if_pos (by omega)]
  rw [finished, if_pos hlow, if_pos hstep, accumulate, foldl_accumulateStep, if_pos (by omega),
    hsum, realPart, if_pos hp]

theorem finished_impulse {mode : UInt16} {points p : Nat}
    (himpulse : domainFunc mode = tdFuncLowpassImpulse) (hp : p < points) (tmp : Nat → Sample ℝ) :
    finished mode points tmp p = ⟨(tmp p).re, 0⟩ := by
  have hlow : isLowpass mode = true := by simp [isLowpass, himpulse]
  have hstep : domainFunc mode ≠ tdFuncLowpassStep := by rw [himpulse]; decide
  rw [finished, if_pos hlow, if_neg hstep, realPart, if_pos hp]

theorem finished_response (s : State ℝ) (ch : Nat) (hpos : 0 < s.sweepPoints)
    (hmax : s.sweepPoints ≤ sweepPointsMax b)
    (hscale : s.windowScale = 1 / windowSum s.propsMode s.sweepPoints b) {y : Nat → Sample ℝ}
    (hy : ∀ k < fftSize b, toComplex (y k) = fourierSum b true (prepared b s ch) k) {p : Nat}
    (hp : p < s.sweepPoints) :
    toComplex (finished s.propsMode s.sweepPoints y p) = response b s ch p := by
  have hsize := two_points_le b hmax
  have hre (hlow : isLowpass s.propsMode = true) {q : Nat} (hq : q < s.sweepPoints) :
      (y q).re = s.windowScale * impulse b s ch q := by
    have hat := hy q (by omega)
    rw [prepared, if_pos hlow] at hat
    rw [← fourierSum_mirror b s ch q hpos hsize, ← hat]
    rfl
  by_cases hstep : domainFunc s.propsMode = tdFuncLowpassStep
  · have hsum : ∑ q ∈ Finset.range (p + 1), (y q).re =
        s.windowScale * ∑ q ∈ Finset.range (p + 1), impulse b s ch q := by
      rw [Finset.mul_sum]
      refine Finset.sum_congr rfl fun q hq => hre (by simp [isLowpass, hstep]) ?_
      have := Finset.mem_range.mp hq
      omega
    rw [finished_step hstep hp, hsum, hscale, windowSum, if_pos hstep, response, if_pos hstep,
      one_div_mul_eq_div]
    rfl
  by_cases himpulse : domainFunc s.propsMode = tdFuncLowpassImpulse
  · rw [finished_impulse himpulse hp, hre (by simp [isLowpass, himpulse]) hp, hscale, windowSum,
      if_neg hstep, if_pos himpulse, foldl_sum, response, if_neg hstep, if_pos himpulse,
      one_div_mul_eq_div, mul_comm 2, windowTotal]
    rfl
  · have hlow : ¬isLowpass s.propsMode = true := by simp [isLowpass, hstep, himpulse]
    have hat := hy p (by omega)
    rw [prepared, if_neg hlow, fourierSum_windowed b s ch p (by omega)] at hat
    rw [finished, if_neg hlow, if_neg hstep, hat, hscale, windowSum, if_neg hstep,
      if_neg himpulse, foldl_sum, response, if_neg hstep, if_neg himpulse, windowTotal]
    push_cast
    rw [one_div_mul_eq_div]

theorem transformChannel_response (s : State ℝ) (ch : Nat) (hpos : 0 < s.sweepPoints)
    (hmax : s.sweepPoints ≤ sweepPointsMax b)
    (hscale : s.windowScale = 1 / windowSum s.propsMode s.sweepPoints b) :
    ∃ data, transformChannel b (exactTable b) s ch =
        some { s with measured := Function.update s.measured ch data } ∧
      ∀ p < s.sweepPoints, toComplex (data p) = response b s ch p := by
  obtain ⟨y, hy, hdft⟩ := fft_exact b true (prepared b s ch)
  refine ⟨_, by rw [transformChannel, hy]; rfl, fun p hp => ?_⟩
  rw [if_pos (hp.trans_le hmax)]
  exact finished_response b s ch hpos hmax hscale (fun k hk => by rw [hdft k hk, dft_root]) hp

theorem response_congr {s t : State ℝ} {ch : Nat} (hmode : t.propsMode = s.propsMode)
    (hpoints : t.sweepPoints = s.sweepPoints) (hdata : t.measured ch = s.measured ch) (p : Nat) :
    response b t ch p = response b s ch p := by
  unfold response windowTotal impulse spectrum
  rw [hmode, hpoints, hdata]

end Response

section Runs

variable (b : Board)

/-- The parts of the program that change what the transform reads; the data of a sweep are
arbitrary. -/
inductive Event (K : Type)
  | mode (propsMode : UInt16)
  | points (points : Nat)
  | sweep (measured : Nat → Nat → Sample K)
  | transform (chMask : Nat)

section Step

variable {K : Type} [Field K] (table : Nat → K)

def step (s : State K) : Event K → Option (State K)
  | .mode propsMode => some { s with propsMode := propsMode }
  | .points points => some { s with sweepPoints := clampPoints b points }
  | .sweep measured => some { s with measured := measured }
  | .transform chMask => transformDomain b table s chMask

/-- The static variables start at zero. -/
def boot (mode : UInt16) (measured : Nat → Nat → Sample K) : State K :=
  ⟨mode, sweepPointsMax b, 0, 0, measured⟩

end Step

structure Ready (s : State ℝ) : Prop where
  enough : sweepPointsMin ≤ s.sweepPoints
  fit : s.sweepPoints ≤ sweepPointsMax b
  coherent : Coherent b s

theorem clampPoints_le (points : Nat) : clampPoints b points ≤ sweepPointsMax b := by
  have hmin : sweepPointsMin ≤ sweepPointsMax b := by cases b <;> decide
  unfold clampPoints
  dsimp only
  split_ifs <;> omega

theorem Ready.some_point {s : State ℝ} (h : Ready b s) : 0 < s.sweepPoints :=
  Nat.lt_of_lt_of_le (by decide) h.enough

theorem Ready.points_lt {s : State ℝ} (h : Ready b s) : s.sweepPoints < 2048 := by
  have hmax : sweepPointsMax b < 2048 := by cases b <;> decide
  exact h.fit.trans_lt hmax

theorem ready_boot (mode : UInt16) (measured : Nat → Nat → Sample ℝ) :
    Ready b (boot b mode measured) := by
  have hmin : sweepPointsMin ≤ sweepPointsMax b := by cases b <;> decide
  refine ⟨hmin, le_rfl, fun mode' points hpos hlt hkey => ?_⟩
  have hnat := congrArg UInt16.toNat hkey
  rw [tdCheck_toNat mode' hlt] at hnat
  simp only [boot, UInt16.toNat_zero] at hnat
  omega

theorem channel_response {s : State ℝ} (h : Ready b s)
    (hscale : s.windowScale = 1 / windowSum s.propsMode s.sweepPoints b) (chMask ch : Nat) :
    ∃ data, (if chMask.testBit ch then transformChannel b (exactTable b) s ch else some s) =
        some { s with measured := Function.update s.measured ch data } ∧
      ∀ p < s.sweepPoints, toComplex (data p) =
        if chMask.testBit ch then response b s ch p else toComplex (s.measured ch p) := by
  by_cases hbit : chMask.testBit ch
  · obtain ⟨data, hdata, hresponse⟩ :=
      transformChannel_response b s ch (h.some_point b) h.fit hscale
    exact ⟨data, by rw [if_pos hbit, hdata], fun p hp => by rw [if_pos hbit, hresponse p hp]⟩
  · exact ⟨s.measured ch, by rw [if_neg hbit, Function.update_eq_self],
      fun p _ => by rw [if_neg hbit]⟩

theorem transformDomain_response {s : State ℝ} (h : Ready b s) (chMask : Nat) :
    ∃ t, transformDomain b (exactTable b) s chMask = some t ∧ Ready b t ∧
      ∀ ch < 2, ∀ p < s.sweepPoints, toComplex (t.measured ch p) =
        if chMask.testBit ch then response b s ch p else toComplex (s.measured ch p) := by
  have hscale := refreshWindow_scale b h.coherent (h.some_point b) (h.points_lt b)
  have hfresh : Ready b (refreshWindow b s) :=
    ⟨by simpa using h.enough, by simpa using h.fit,
      coherent_refreshWindow b h.coherent (h.points_lt b)⟩
  obtain ⟨d₀, h₀, hresponse₀⟩ := channel_response b hfresh (by simpa using hscale) chMask 0
  set s₁ : State ℝ :=
    { refreshWindow b s with measured := Function.update (refreshWindow b s).measured 0 d₀ }
    with hs₁
  have hready₁ : Ready b s₁ := ⟨hfresh.enough, hfresh.fit, hfresh.coherent⟩
  obtain ⟨d₁, h₁, hresponse₁⟩ := channel_response b hready₁ (by simpa [hs₁] using hscale) chMask 1
  refine ⟨{ s₁ with measured := Function.update s₁.measured 1 d₁ }, ?_,
    ⟨hready₁.enough, hready₁.fit, hready₁.coherent⟩, ?_⟩
  · rw [transformDomain, List.range_succ, List.range_one]
    simp only [List.singleton_append, List.foldlM_cons, List.foldlM_nil, h₀, h₁,
      Option.bind_eq_bind, Option.bind_some]
    rfl
  · intro ch hch p hp
    have hcases : ch = 0 ∨ ch = 1 := by omega
    rcases hcases with rfl | rfl
    · simp only [hs₁, Function.update_of_ne (zero_ne_one' Nat), Function.update_self]
      rw [hresponse₀ p (by simpa using hp), response_congr b (t := refreshWindow b s) (s := s)
        (by simp) (by simp) (by simp), refreshWindow_measured]
    · simp only [Function.update_self]
      rw [hresponse₁ p (by simpa [hs₁] using hp), response_congr b (t := s₁) (s := s)
        (by simp [hs₁]) (by simp [hs₁]) (by simp [hs₁])]
      simp [hs₁]

theorem ready_step {s : State ℝ} (h : Ready b s) (e : Event ℝ) :
    ∃ t, step b (exactTable b) s e = some t ∧ Ready b t := by
  cases e with
  | mode propsMode => exact ⟨_, rfl, h.enough, h.fit, h.coherent⟩
  | points points =>
    exact ⟨_, rfl, clampPoints_min b points, clampPoints_le b points, h.coherent⟩
  | sweep measured => exact ⟨_, rfl, h.enough, h.fit, h.coherent⟩
  | transform chMask =>
    obtain ⟨t, ht, hready, -⟩ := transformDomain_response b h chMask
    exact ⟨t, ht, hready⟩

theorem ready_run {s : State ℝ} (h : Ready b s) (events : List (Event ℝ)) :
    ∃ t, events.foldlM (step b (exactTable b)) s = some t ∧ Ready b t := by
  induction events generalizing s with
  | nil => exact ⟨s, rfl, h⟩
  | cons e events ih =>
    obtain ⟨u, hu, hready⟩ := ready_step b h e
    obtain ⟨t, ht, hlast⟩ := ih hready
    exact ⟨t, by rw [List.foldlM_cons, hu]; exact ht, hlast⟩

/-- However the mode and the points have changed before, a transform uses the window of the
present ones. -/
theorem transform_of_run (mode : UInt16) (measured : Nat → Nat → Sample ℝ)
    (events : List (Event ℝ)) (chMask : Nat) :
    ∃ s t, events.foldlM (step b (exactTable b)) (boot b mode measured) = some s ∧
      transformDomain b (exactTable b) s chMask = some t ∧
      ∀ ch < 2, ∀ p < s.sweepPoints, toComplex (t.measured ch p) =
        if chMask.testBit ch then response b s ch p else toComplex (s.measured ch p) := by
  obtain ⟨s, hs, hready⟩ := ready_run b (ready_boot b mode measured) events
  obtain ⟨t, ht, -, hresponse⟩ := transformDomain_response b hready chMask
  exact ⟨s, t, hs, ht, hresponse⟩

end Runs

section Reflection

variable (b : Board)

theorem wave_eq_pow (m p : Nat) : wave b m p = (root b true ^ p) ^ m := by
  rw [wave, root, ← pow_mul, ← Complex.exp_nat_mul]
  congr 1
  push_cast
  rw [if_pos rfl]
  ring

/-- The points of a line that reflects a part of the wave once, after `d` steps of time. -/
def Reflects (s : State ℝ) (ch d : Nat) (amplitude : ℝ) : Prop :=
  ∀ m < s.sweepPoints, toComplex (s.measured ch m) = amplitude * (starRingEnd ℂ) (wave b m d)

/-- The turn from one point of the sweep to the next, seen at a point of time. -/
noncomputable def turnOf (d p : Nat) : ℂ := root b true ^ p * (starRingEnd ℂ) (root b true ^ d)

theorem norm_root_pow (p : Nat) : ‖root b true ^ p‖ = 1 := by
  rw [norm_pow, (isPrimitiveRoot_root b true).norm'_eq_one (fftSize_ne_zero b), one_pow]

theorem norm_turnOf (d p : Nat) : ‖turnOf b d p‖ = 1 := by
  rw [turnOf, norm_mul, RCLike.norm_conj, norm_root_pow, norm_root_pow, one_mul]

theorem turnOf_self (d : Nat) : turnOf b d d = 1 := by
  rw [turnOf, Complex.mul_conj, Complex.normSq_eq_norm_sq, norm_root_pow]
  norm_num

theorem turnOf_ne_one {d p : Nat} (hd : d < fftSize b) (hp : p < fftSize b) (hne : p ≠ d) :
    turnOf b d p ≠ 1 := by
  intro h
  have hsame : root b true ^ p = root b true ^ d := by
    calc root b true ^ p = root b true ^ p * turnOf b d d := by rw [turnOf_self, mul_one]
      _ = turnOf b d p * root b true ^ d := by rw [turnOf, turnOf]; ring
      _ = root b true ^ d := by rw [h, one_mul]
  exact hne ((isPrimitiveRoot_root b true).pow_inj hp hd hsame)

theorem re_lt_one {z : ℂ} (hnorm : ‖z‖ = 1) (hne : z ≠ 1) : z.re < 1 := by
  refine lt_of_le_of_ne (hnorm ▸ Complex.re_le_norm z) fun hre => hne ?_
  have hsq := Complex.sq_norm_sub_sq_re z
  rw [hnorm, hre] at hsq
  have him : z.im = 0 := by nlinarith
  exact Complex.ext hre him

theorem weight_pos (mode : UInt16) (points m : Nat) : (0 : ℝ) < weight mode points m :=
  lt_of_lt_of_le one_pos (one_le_kaiserWindowExt _ _ _)

theorem spectrum_of_reflects {s : State ℝ} {ch d : Nat} {amplitude : ℝ}
    (h : Reflects b s ch d amplitude) (p : Nat) :
    spectrum b s ch p = amplitude * ∑ m ∈ Finset.range s.sweepPoints,
      ((weight s.propsMode s.sweepPoints m : ℝ) : ℂ) * turnOf b d p ^ m := by
  rw [spectrum, Finset.mul_sum]
  refine Finset.sum_congr rfl fun m hm => ?_
  rw [h m (Finset.mem_range.mp hm), wave_eq_pow, wave_eq_pow, turnOf, mul_pow, ← map_pow]
  ring

/-- Weights that turn add up to less than weights that do not. -/
theorem norm_weighted_sum_lt {n : Nat} (hn : 2 ≤ n) (w : Nat → ℝ) (hw : ∀ m, 0 < w m) {z : ℂ}
    (hnorm : ‖z‖ = 1) (hne : z ≠ 1) :
    ‖∑ m ∈ Finset.range n, (w m : ℂ) * z ^ m‖ < ∑ m ∈ Finset.range n, w m := by
  obtain ⟨k, rfl⟩ := Nat.exists_eq_add_of_le hn
  have hpair : ‖(w 0 : ℂ) + w 1 * z‖ < w 0 + w 1 := by
    have hre := re_lt_one hnorm hne
    have hsquare : ‖(w 0 : ℂ) + w 1 * z‖ ^ 2 =
        w 0 ^ 2 + w 1 ^ 2 * ‖z‖ ^ 2 + 2 * w 0 * w 1 * z.re := by
      rw [Complex.sq_norm, Complex.sq_norm, Complex.normSq_apply, Complex.normSq_apply]
      simp
      ring
    rw [hnorm] at hsquare
    refine lt_of_pow_lt_pow_left₀ 2 (add_pos (hw 0) (hw 1)).le ?_
    rw [hsquare]
    nlinarith [mul_pos (hw 0) (hw 1)]
  have hrest : ‖∑ m ∈ Finset.range k, (w (2 + m) : ℂ) * z ^ (2 + m)‖ ≤
      ∑ m ∈ Finset.range k, w (2 + m) := by
    refine (norm_sum_le _ _).trans (Finset.sum_le_sum fun m _ => ?_)
    rw [norm_mul, norm_pow, hnorm, one_pow, mul_one, Complex.norm_real, Real.norm_eq_abs,
      abs_of_pos (hw _)]
  rw [Finset.sum_range_add, Finset.sum_range_add]
  have htwo : ∑ m ∈ Finset.range 2, (w m : ℂ) * z ^ m = w 0 + w 1 * z := by
    simp [Finset.sum_range_succ]
  have htwo' : ∑ m ∈ Finset.range 2, w m = w 0 + w 1 := by simp [Finset.sum_range_succ]
  rw [htwo, htwo']
  exact (norm_add_le _ _).trans_lt (add_lt_add_of_lt_of_le hpair hrest)

theorem peak_terms {n : Nat} (hn : 2 ≤ n) (w : Nat → ℝ) (hw : ∀ m, 0 < w m) {z : ℂ}
    (hnorm : ‖z‖ = 1) (hne : z ≠ 1) :
    |2 * (∑ m ∈ Finset.range n, (w m : ℂ) * z ^ m).re - w 0| <
      2 * ∑ m ∈ Finset.range n, w m - w 0 := by
  have hupper := (Complex.re_le_norm _).trans_lt (norm_weighted_sum_lt hn w hw hnorm hne)
  have htail : ‖∑ m ∈ Finset.range (n - 1), (w (m + 1) : ℂ) * z ^ (m + 1)‖ ≤
      ∑ m ∈ Finset.range (n - 1), w (m + 1) := by
    refine (norm_sum_le _ _).trans (Finset.sum_le_sum fun m _ => ?_)
    rw [norm_mul, norm_pow, hnorm, one_pow, mul_one, Complex.norm_real, Real.norm_eq_abs,
      abs_of_pos (hw _)]
  obtain ⟨k, rfl⟩ := Nat.exists_eq_add_of_le' (Nat.one_le_of_lt hn)
  rw [Nat.add_sub_cancel] at htail
  have hlower := (abs_le.mp (Complex.abs_re_le_norm
    (∑ m ∈ Finset.range k, (w (m + 1) : ℂ) * z ^ (m + 1)))).1
  have hfirst := hw 0
  rw [abs_lt]
  refine ⟨?_, by linarith⟩
  rw [Finset.sum_range_succ', Finset.sum_range_succ']
  simp only [pow_zero, mul_one, Complex.add_re, Complex.ofReal_re]
  linarith

theorem impulse_of_reflects {s : State ℝ} {ch d : Nat} {amplitude : ℝ} (hpos : 0 < s.sweepPoints)
    (h : Reflects b s ch d amplitude) (p : Nat) :
    impulse b s ch p = amplitude *
      (2 * (∑ m ∈ Finset.range s.sweepPoints,
        ((weight s.propsMode s.sweepPoints m : ℝ) : ℂ) * turnOf b d p ^ m).re -
        weight s.propsMode s.sweepPoints 0) := by
  have hfirst : (s.measured ch 0).re = amplitude := by
    have hre := congrArg Complex.re (h 0 hpos)
    rw [wave_eq_pow, pow_zero, map_one, mul_one, Complex.ofReal_re] at hre
    exact hre
  rw [impulse, spectrum_of_reflects b h, Complex.re_ofReal_mul, hfirst]
  ring

theorem sum_turnOf_self (d n : Nat) (w : Nat → ℝ) :
    ∑ m ∈ Finset.range n, (w m : ℂ) * turnOf b d d ^ m = (∑ m ∈ Finset.range n, w m : ℝ) := by
  rw [turnOf_self, Complex.ofReal_sum]
  exact Finset.sum_congr rfl fun m _ => by rw [one_pow, mul_one]

theorem windowTotal_pos {s : State ℝ} (hpos : 0 < s.sweepPoints) : 0 < windowTotal s :=
  Finset.sum_pos (fun m _ => weight_pos _ _ m) (Finset.nonempty_range_iff.mpr hpos.ne')

theorem response_peak {s : State ℝ} (hs : Ready b s) {ch d : Nat} {amplitude : ℝ}
    (hamplitude : 0 < amplitude) (h : Reflects b s ch d amplitude) (hd : d < s.sweepPoints)
    (hstep : domainFunc s.propsMode ≠ tdFuncLowpassStep) {p : Nat} (hp : p < s.sweepPoints)
    (hne : p ≠ d) : ‖response b s ch p‖ < ‖response b s ch d‖ := by
  have hpos := hs.some_point b
  have htwo : 2 ≤ s.sweepPoints := le_trans (by decide) hs.enough
  have htotal := windowTotal_pos hpos
  have hsize := two_points_le b hs.fit
  have hturn := turnOf_ne_one b (by omega : d < fftSize b) (by omega : p < fftSize b) hne
  have hw := weight_pos s.propsMode s.sweepPoints
  rw [response, response, if_neg hstep, if_neg hstep]
  split_ifs with himpulse
  · have hpeak := peak_terms htwo _ hw (norm_turnOf b d p) hturn
    rw [impulse_of_reflects b hpos h, impulse_of_reflects b hpos h, sum_turnOf_self,
      Complex.ofReal_re, Complex.norm_real, Complex.norm_real, Real.norm_eq_abs, Real.norm_eq_abs,
      abs_div, abs_div, abs_mul amplitude, abs_mul amplitude]
    gcongr
    exact hpeak.trans_le (le_abs_self _)
  · rw [spectrum_of_reflects b h, spectrum_of_reflects b h, sum_turnOf_self, norm_div, norm_div,
      norm_mul, norm_mul, Complex.norm_real (∑ _ ∈ _, _), Real.norm_eq_abs]
    have hlt := norm_weighted_sum_lt htwo _ hw (norm_turnOf b d p) hturn
    have hamp : 0 < ‖(amplitude : ℂ)‖ := by
      rw [Complex.norm_real, Real.norm_eq_abs]
      exact abs_pos.mpr hamplitude.ne'
    have hden : 0 < ‖(windowTotal s : ℂ)‖ := by
      rw [Complex.norm_real, Real.norm_eq_abs]
      exact abs_pos.mpr htotal.ne'
    gcongr
    exact hlt.trans_le (le_abs_self _)

def Reached (s : State ℝ) : Prop :=
  ∃ mode measured events, List.foldlM (step b (exactTable b)) (boot b mode measured) events = some s

theorem Reached.ready {s : State ℝ} (h : Reached b s) : Ready b s := by
  obtain ⟨mode, measured, events, hrun⟩ := h
  obtain ⟨t, ht, hready⟩ := ready_run b (ready_boot b mode measured) events
  rw [hrun] at ht
  obtain rfl := Option.some.inj ht
  exact hready

/-- The trace of a single reflection is highest at its delay and nowhere else, and the band-pass
trace has the reflection's own size there. -/
theorem transform_of_reflection {s : State ℝ} (hs : Reached b s) {ch d : Nat} {amplitude : ℝ}
    (hamplitude : 0 < amplitude) (h : Reflects b s ch d amplitude) (hd : d < s.sweepPoints)
    (hstep : domainFunc s.propsMode ≠ tdFuncLowpassStep) {chMask : Nat} (hch : ch < 2)
    (hbit : chMask.testBit ch = true) :
    ∃ t, transformDomain b (exactTable b) s chMask = some t ∧
      (∀ p < s.sweepPoints, p ≠ d →
        ‖toComplex (t.measured ch p)‖ < ‖toComplex (t.measured ch d)‖) ∧
      (domainFunc s.propsMode ≠ tdFuncLowpassImpulse →
        toComplex (t.measured ch d) = amplitude) := by
  have hready := hs.ready b
  obtain ⟨t, ht, -, hresponse⟩ := transformDomain_response b hready chMask
  refine ⟨t, ht, fun p hp hne => ?_, fun himpulse => ?_⟩
  · rw [hresponse ch hch p hp, hresponse ch hch d hd, if_pos hbit, if_pos hbit]
    exact response_peak b hready hamplitude h hd hstep hp hne
  · have htotal : (windowTotal s : ℂ) ≠ 0 := by
      exact_mod_cast (windowTotal_pos (hready.some_point b)).ne'
    rw [hresponse ch hch d hd, if_pos hbit, response, if_neg hstep, if_neg himpulse,
      spectrum_of_reflects b h, sum_turnOf_self, ← windowTotal, mul_div_assoc, div_self htotal,
      mul_one]

/-- Half of the wave comes back after ten steps. -/
theorem transform_of_reflection_ten :
    ∃ s : State ℝ, s.propsMode = tdFuncBandpass ∧ ∃ t,
      transformDomain .f072 (exactTable .f072) s 1 = some t ∧
      (∀ p < s.sweepPoints, p ≠ 10 →
        ‖toComplex (t.measured 0 p)‖ < ‖toComplex (t.measured 0 10)‖) ∧
      (domainFunc s.propsMode ≠ tdFuncLowpassImpulse →
        toComplex (t.measured 0 10) = ((1 / 2 : ℝ) : ℂ)) := by
  let z (m : Nat) : ℂ := ((1 / 2 : ℝ) : ℂ) * (starRingEnd ℂ) (wave .f072 m 10)
  refine ⟨boot .f072 tdFuncBandpass fun _ m => ⟨(z m).re, (z m).im⟩, rfl, ?_⟩
  exact transform_of_reflection .f072 ⟨_, _, [], rfl⟩ one_half_pos (fun m _ => rfl)
    (by decide : 10 < 101) (by decide) (by decide) (by decide)

end Reflection

end NanoVNA.TimeDomain
