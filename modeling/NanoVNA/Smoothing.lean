import Mathlib.Logic.Function.Iterate
import NanoVNA.Word32

namespace NanoVNA.Smoothing

open NanoVNA.Word32

variable {R : Type}

/-- The floats of a channel with the saved values of a pass: sample `j` has its real part at `2 * j`
and its imaginary part behind it. -/
structure Running (R : Type) where
  data : Nat → R
  prevRe : R
  prevIm : R

def smoothSample (f : R → R → R → R) (s : Running R) (j : Nat) : Running R :=
  let oldRe := s.data (2 * j)
  let oldIm := s.data (2 * j + 1)
  let re := Function.update s.data (2 * j) (f s.prevRe (s.data (2 * j)) (s.data (2 * j + 2)))
  let im := Function.update re (2 * j + 1) (f s.prevIm (re (2 * j + 1)) (re (2 * j + 3)))
  { data := im, prevRe := oldRe, prevIm := oldIm }

/-- A pass up to and with inner sample `k`. -/
def smoothUpTo (f : R → R → R → R) (data : Nat → R) (k : Nat) : Running R :=
  (List.range' 1 k).foldl (smoothSample f) { data, prevRe := data 0, prevIm := data 1 }

def smoothPass (f : R → R → R → R) (points : Nat) (data : Nat → R) : Nat → R :=
  (smoothUpTo f data (points - 2)).data

def passes (factor points : Nat) : Nat :=
  let count := u32 (2 ^ (factor - 1))
  min (if count = 0 then 1 else count) (points - 2)

structure Smoother (R : Type) where
  smoothFactor : Nat
  sweepPoints : Nat
  modeSmooth : Bool
  measured : Nat → Nat → R

/-- The passes over a channel that `ch_mask` asks for. -/
def smoothChannel (f : R → R → R → R) (chMask : Nat) (s : Smoother R) (ch : Nat) : Smoother R :=
  if chMask.testBit ch then
    { s with
      measured := Function.update s.measured ch
        ((smoothPass f s.sweepPoints)^[passes s.smoothFactor s.sweepPoints] (s.measured ch)) }
  else s

def setSmoothFactor (factor : Nat) (s : Smoother R) : Smoother R :=
  { s with smoothFactor := if 8 < factor then 8 else factor }

section Means

variable [Add R] [Mul R] [Neg R] [Zero R] [OfScientific R] [LT R] [DecidableLT R]

def arifmeticMean (v0 v1 v2 : R) : R := (v0 + 2.0 * v1 + v2) * 0.25

def geometryMean (vnaCbrtf vnaFabsf : R → R) (v0 v1 v2 : R) : R :=
  let v := vnaCbrtf (vnaFabsf (v0 * v1 * v2))
  if v0 + v1 + v2 < 0 then -v else v

/-- `VNA_MODE_SMOOTH` chooses the mean. -/
def smoothFunc (vnaCbrtf vnaFabsf : R → R) (modeSmooth : Bool) : R → R → R → R :=
  if modeSmooth then arifmeticMean else geometryMean vnaCbrtf vnaFabsf

def measurementDataSmooth (vnaCbrtf vnaFabsf : R → R) (chMask : Nat) (s : Smoother R) :
    Smoother R :=
  if s.smoothFactor = 0 then s
  else if s.sweepPoints ≤ 2 then s
  else [0, 1].foldl (smoothChannel (smoothFunc vnaCbrtf vnaFabsf s.modeSmooth) chMask) s

end Means

/-- The filter out of place: real and imaginary parts are two places apart from their neighbours. -/
def filtered (f : R → R → R → R) (points : Nat) (data : Nat → R) (n : Nat) : R :=
  if 2 ≤ n ∧ n < 2 * (points - 1) then f (data (n - 2)) (data n) (data (n + 2)) else data n

example : smoothPass (fun a b c => a + 10 * b + 100 * c) 4 (fun n => n) 4 = 642 := by decide

/-- What the running values stand for when the pass has come to inner sample `k`. -/
structure Slid (f : R → R → R → R) (data : Nat → R) (k : Nat) (s : Running R) : Prop where
  prevRe : s.prevRe = data (2 * k)
  prevIm : s.prevIm = data (2 * k + 1)
  behind : s.data = filtered f (k + 2) data

section Pass

variable {k n points : Nat}

theorem filtered_inner (f : R → R → R → R) (data : Nat → R) (h2 : 2 ≤ n)
    (hn : n < 2 * (points - 1)) :
    filtered f points data n = f (data (n - 2)) (data n) (data (n + 2)) := if_pos ⟨h2, hn⟩

theorem filtered_outer (f : R → R → R → R) (data : Nat → R)
    (h : ¬ (2 ≤ n ∧ n < 2 * (points - 1))) : filtered f points data n = data n := if_neg h

theorem slid_sample {f : R → R → R → R} {data : Nat → R} {s : Running R} (h : Slid f data k s) :
    Slid f data (k + 1) (smoothSample f s (k + 1)) := by
  have hold : ∀ n, 2 * (k + 1) ≤ n → s.data n = data n := by
    intro n hn
    rw [h.behind]
    exact filtered_outer f data (by omega)
  refine ⟨hold _ (Nat.le_refl _), hold _ (Nat.le_succ _), ?_⟩
  funext n
  simp only [smoothSample]
  by_cases him : n = 2 * (k + 1) + 1
  · have h1 : 2 * (k + 1) + 1 ≠ 2 * (k + 1) := by omega
    have h3 : 2 * (k + 1) + 3 ≠ 2 * (k + 1) := by omega
    rw [him, Function.update_self, Function.update_of_ne h1, Function.update_of_ne h3, h.prevIm,
      hold _ (by omega), hold _ (by omega), filtered_inner f data (by omega) (by omega)]
    rfl
  · rw [Function.update_of_ne him]
    by_cases hre : n = 2 * (k + 1)
    · rw [hre, Function.update_self, h.prevRe, hold _ (by omega), hold _ (by omega),
        filtered_inner f data (by omega) (by omega)]
      rfl
    · rw [Function.update_of_ne hre, h.behind]
      by_cases hn : 2 ≤ n ∧ n < 2 * (k + 1)
      · rw [filtered_inner f data hn.1 (by omega), filtered_inner f data hn.1 (by omega)]
      · rw [filtered_outer f data (by omega), filtered_outer f data (by omega)]

theorem slid_smoothUpTo (f : R → R → R → R) (data : Nat → R) (k : Nat) :
    Slid f data k (smoothUpTo f data k) := by
  induction k with
  | zero =>
    refine ⟨rfl, rfl, ?_⟩
    funext n
    exact (filtered_outer f data (by omega)).symm
  | succ k ih =>
    rw [smoothUpTo, List.range'_concat, List.foldl_append, Nat.one_mul, Nat.add_comm 1 k]
    exact slid_sample ih

theorem smoothPass_eq (f : R → R → R → R) (points : Nat) (data : Nat → R) :
    smoothPass f points data = filtered f points data := by
  rw [smoothPass, (slid_smoothUpTo f data (points - 2)).behind]
  funext n
  by_cases hn : 2 ≤ n ∧ n < 2 * (points - 1)
  · rw [filtered_inner f data hn.1 hn.2, filtered_inner f data hn.1 (by omega)]
  · rw [filtered_outer f data hn, filtered_outer f data (by omega)]

end Pass

theorem passes_setSmoothFactor (factor : Nat) (s : Smoother R) :
    passes (setSmoothFactor factor s).smoothFactor s.sweepPoints =
      min (2 ^ (min factor 8 - 1)) (s.sweepPoints - 2) := by
  have hfactor : (setSmoothFactor factor s).smoothFactor = min factor 8 := by
    simp only [setSmoothFactor]
    split <;> omega
  have hlt : 2 ^ (min factor 8 - 1) < 2 ^ 32 := Nat.pow_lt_pow_right (by decide) (by omega)
  have hpos : 2 ^ (min factor 8 - 1) ≠ 0 := Nat.ne_of_gt (Nat.two_pow_pos _)
  rw [hfactor, passes, u32_of_lt hlt, if_neg hpos]

@[simp] theorem smoothChannel_smoothFactor (f : R → R → R → R) (chMask : Nat) (s : Smoother R)
    (ch : Nat) : (smoothChannel f chMask s ch).smoothFactor = s.smoothFactor := by
  simp only [smoothChannel, apply_ite, ite_self]

@[simp] theorem smoothChannel_sweepPoints (f : R → R → R → R) (chMask : Nat) (s : Smoother R)
    (ch : Nat) : (smoothChannel f chMask s ch).sweepPoints = s.sweepPoints := by
  simp only [smoothChannel, apply_ite, ite_self]

theorem smoothChannel_measured (f : R → R → R → R) (chMask : Nat) (s : Smoother R) (ch c : Nat) :
    (smoothChannel f chMask s ch).measured c =
      (smoothPass f s.sweepPoints)^[if c = ch ∧ chMask.testBit ch then
        passes s.smoothFactor s.sweepPoints else 0] (s.measured c) := by
  rw [smoothChannel]
  by_cases hbit : chMask.testBit ch
  · by_cases hc : c = ch
    · simp [hbit, hc]
    · simp [hbit, hc]
  · simp [hbit]

def sample (data : Nat → R) (j : Nat) : R × R := (data (2 * j), data (2 * j + 1))

theorem sample_smoothPass (f : R → R → R → R) (points : Nat) (data : Nat → R) (j : Nat) :
    sample (smoothPass f points data) j =
      if 0 < j ∧ j + 1 < points then
        (f (sample data (j - 1)).1 (sample data j).1 (sample data (j + 1)).1,
          f (sample data (j - 1)).2 (sample data j).2 (sample data (j + 1)).2)
      else sample data j := by
  simp only [smoothPass_eq, sample]
  by_cases hj : 0 < j ∧ j + 1 < points
  · have hre : 2 * j - 2 = 2 * (j - 1) := by omega
    have him : 2 * j + 1 - 2 = 2 * (j - 1) + 1 := by omega
    rw [if_pos hj, filtered_inner f data (by omega) (by omega),
      filtered_inner f data (by omega) (by omega), hre, him]
    rfl
  · rw [if_neg hj, filtered_outer f data (by omega), filtered_outer f data (by omega)]

section Means

variable [Add R] [Mul R] [Neg R] [Zero R] [OfScientific R] [LT R] [DecidableLT R]

def passesOf (chMask : Nat) (s : Smoother R) (ch : Nat) : Nat :=
  if s.smoothFactor ≠ 0 ∧ ch < 2 ∧ chMask.testBit ch then passes s.smoothFactor s.sweepPoints
  else 0

theorem measurementDataSmooth_measured (vnaCbrtf vnaFabsf : R → R) (chMask : Nat)
    (s : Smoother R) (ch : Nat) :
    (measurementDataSmooth vnaCbrtf vnaFabsf chMask s).measured ch =
      (smoothPass (smoothFunc vnaCbrtf vnaFabsf s.modeSmooth) s.sweepPoints)^[passesOf chMask s ch]
        (s.measured ch) := by
  rw [measurementDataSmooth, passesOf]
  by_cases hfactor : s.smoothFactor = 0
  · simp [hfactor]
  · rw [if_neg hfactor]
    by_cases hpoints : s.sweepPoints ≤ 2
    · simp [hpoints, passes, Nat.sub_eq_zero_of_le hpoints]
    · rw [if_neg hpoints, List.foldl_cons, List.foldl_cons, List.foldl_nil]
      simp only [smoothChannel_measured, smoothChannel_smoothFactor, smoothChannel_sweepPoints,
        ← Function.iterate_add_apply]
      congr 1
      by_cases h0 : ch = 0
      · simp [h0, hfactor]
      · by_cases h1 : ch = 1
        · simp [h1, hfactor]
        · have hch : ¬ ch < 2 := by omega
          simp [h0, h1, hch]

/-- Every pass over the measured points is the filter out of place, for real and imaginary parts
apart, and while it runs the saved values are the sample before the next as it was and all samples
from the next on are as they were. -/
theorem measurementDataSmooth_filters (vnaCbrtf vnaFabsf : R → R) (chMask : Nat) (s : Smoother R) :
    let f := smoothFunc vnaCbrtf vnaFabsf s.modeSmooth
    (∀ data j, sample (smoothPass f s.sweepPoints data) j =
      if 0 < j ∧ j + 1 < s.sweepPoints then
        (f (sample data (j - 1)).1 (sample data j).1 (sample data (j + 1)).1,
          f (sample data (j - 1)).2 (sample data j).2 (sample data (j + 1)).2)
      else sample data j) ∧
    (∀ data k, ((smoothUpTo f data k).prevRe, (smoothUpTo f data k).prevIm) = sample data k ∧
      ∀ j, k < j → sample (smoothUpTo f data k).data j = sample data j) ∧
    ∀ ch, (measurementDataSmooth vnaCbrtf vnaFabsf chMask s).measured ch =
      (smoothPass f s.sweepPoints)^[passesOf chMask s ch] (s.measured ch) := by
  intro f
  refine ⟨sample_smoothPass f s.sweepPoints, ?_, measurementDataSmooth_measured _ _ chMask s⟩
  intro data k
  have hslid := slid_smoothUpTo f data k
  refine ⟨by rw [hslid.prevRe, hslid.prevIm, sample], fun j hj => ?_⟩
  rw [sample, hslid.behind, filtered_outer f data (by omega), filtered_outer f data (by omega),
    sample]

end Means

end NanoVNA.Smoothing
