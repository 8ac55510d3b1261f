import Mathlib.Tactic.Linarith
import Mathlib.Tactic.FieldSimp
import Mathlib.Algebra.Order.Field.Basic
import Mathlib.Algebra.Order.Ring.Rat
import NanoVNA.GridFrequencies
import NanoVNA.SweepPoint

namespace NanoVNA.CalibrationSegments

open NanoVNA.Word32 NanoVNA.DeviceState NanoVNA.SweepGrid NanoVNA.Calibration
open NanoVNA.BandStrategy NanoVNA.BandSelection NanoVNA.SweepPoint NanoVNA.GridFrequencies

abbrev CalGrid (p : Properties ℚ) : Prop := Spans p.calFrequency0 p.calFrequency1 p.calSweepPoints

def calFrequency (p : Properties ℚ) (i : Nat) : Nat :=
  getFrequency
    (appMeasurementSetFrequencies p.calFrequency0 p.calFrequency1 p.calSweepPoints) i

def gridPoint (p : Properties ℚ) (i : Nat) : Nat :=
  gridFrequency p.calFrequency0 p.calFrequency1 p.calSweepPoints i

theorem calFrequency_eq {p : Properties ℚ} (h : CalGrid p) {i : Nat} (hi : i < p.calSweepPoints) :
    calFrequency p i = gridPoint p i := getFrequency_grid h hi

def weight (f : Nat) (b : Bracket) : ℚ :=
  if sub32 b.srcF1 b.srcF0 = 0 then 0 else (sub32 f b.srcF0 : ℚ) / sub32 b.srcF1 b.srcF0

/-- The point that the terms at a frequency start from, and the weight of the point after it when
that one takes part. -/
def segment (cfg : Config ℚ) (f : Nat) : Nat × Option ℚ :=
  if f ≤ cfg.props.calFrequency0 then (0, none)
  else if cfg.props.calFrequency1 ≤ f then (sub32 cfg.props.calSweepPoints 1 % 65536, none)
  else
    let b := bracket cfg.props f
    if f = b.srcF0 then (b.idx, none) else sameHarmonic cfg f b (weight f b)

def reads : Nat × Option ℚ → List Nat
  | (i, none) => [i]
  | (i, some _) => [i, i + 1]

def evalSegment (data : Nat → Point ℚ) : Nat × Option ℚ → Point ℚ
  | (i, none) => data i
  | (i, some k) => fun cell => blend k (data i cell) (data (i + 1) cell)

theorem calInterpolate_segment (cfg : Config ℚ) (f : Nat) :
    calInterpolate cfg none f = evalSegment cfg.props.calData (segment cfg f) := by
  unfold calInterpolate segment
  dsimp only
  split
  · rfl
  · split
    · rfl
    · split
      · rfl
      · rw [show (if sub32 (bracket cfg.props f).srcF1 (bracket cfg.props f).srcF0 = 0 then (0 : ℚ)
            else _) = weight f (bracket cfg.props f) from rfl]
        generalize sameHarmonic cfg f _ _ = seg
        obtain ⟨i, _ | k⟩ := seg <;> rfl

section Bracketed

variable {cfg : Config ℚ} {f : Nat}

theorem lastPoint_eq {p : Properties ℚ} (h : CalGrid p) :
    sub32 p.calSweepPoints 1 % 65536 = p.calSweepPoints - 1 := by
  have htwo := h.two
  have hcounted := h.counted
  rw [sub32_of_le (by omega) (by omega)]
  omega

theorem bracket_spec {p : Properties ℚ} (h : CalGrid p) (hlo : p.calFrequency0 < f)
    (hhi : f < p.calFrequency1) :
    ∃ i, i + 1 < p.calSweepPoints ∧
      bracket p f = ⟨i, gridPoint p i, gridPoint p (i + 1)⟩ ∧
      gridPoint p i ≤ f ∧ f ≤ gridPoint p (i + 1) := by
  have hlt := h.lt
  have hsteps := h.steps_pos
  have hspan : sub32 p.calFrequency1 p.calFrequency0 = p.calFrequency1 - p.calFrequency0 :=
    sub32_of_le hlt h.le
  have hoffset : sub32 f p.calFrequency0 = f - p.calFrequency0 :=
    sub32_of_le (Nat.lt_trans hhi hlt) (Nat.le_of_lt hlo)
  have hlast := lastPoint_eq h
  obtain ⟨i, hi⟩ : ∃ i, (f - p.calFrequency0) * (p.calSweepPoints - 1) /
      (p.calFrequency1 - p.calFrequency0) = i := ⟨_, rfl⟩
  have hspos : 0 < p.calFrequency1 - p.calFrequency0 := by omega
  have hbelow : (p.calFrequency1 - p.calFrequency0) * i ≤
      (f - p.calFrequency0) * (p.calSweepPoints - 1) := hi ▸ Nat.mul_div_le _ _
  have habove : (f - p.calFrequency0) * (p.calSweepPoints - 1) <
      (p.calFrequency1 - p.calFrequency0) * (i + 1) := hi ▸ Nat.lt_mul_div_succ _ hspos
  have hinside : i < p.calSweepPoints - 1 := by
    rw [← hi]
    refine (Nat.div_lt_iff_lt_mul hspos).mpr ?_
    rw [Nat.mul_comm]
    exact Nat.mul_lt_mul_of_pos_left (by omega) hsteps
  have hwrap : ∀ j, j < p.calSweepPoints → u32 (gridPoint p j) = gridPoint p j :=
    fun j hj => u32_of_lt (Nat.lt_of_le_of_lt (gridFrequency_le h hj) hlt)
  refine ⟨i, by omega, ?_, ?_, ?_⟩
  · have hnext : (p.calFrequency1 - p.calFrequency0) * i + (p.calSweepPoints - 1) / 2 +
        (p.calFrequency1 - p.calFrequency0) =
          (p.calFrequency1 - p.calFrequency0) * (i + 1) + (p.calSweepPoints - 1) / 2 := by
      rw [Nat.mul_succ]
      omega
    unfold bracket
    simp only [hspan, hoffset, hlast, hi, hnext]
    rw [← hwrap i (by omega), ← hwrap (i + 1) (by omega)]
    rfl
  · have hle : gridPoint p i - p.calFrequency0 ≤ f - p.calFrequency0 := by
      rw [gridPoint, gridFrequency, Nat.add_sub_cancel_left, ← Nat.lt_succ_iff,
        Nat.div_lt_iff_lt_mul hsteps, Nat.succ_mul]
      omega
    omega
  · have hle : f - p.calFrequency0 ≤ gridPoint p (i + 1) - p.calFrequency0 := by
      rw [gridPoint, gridFrequency, Nat.add_sub_cancel_left, Nat.le_div_iff_mul_le hsteps]
      omega
    omega

theorem segment_inner (h : CalGrid cfg.props) (hlo : cfg.props.calFrequency0 < f)
    (hhi : f < cfg.props.calFrequency1) :
    ∃ i, i + 1 < cfg.props.calSweepPoints ∧ gridPoint cfg.props i ≤ f ∧
      f ≤ gridPoint cfg.props (i + 1) ∧
      segment cfg f =
        if f = gridPoint cfg.props i then (i, none)
        else sameHarmonic cfg f ⟨i, gridPoint cfg.props i, gridPoint cfg.props (i + 1)⟩
          (weight f ⟨i, gridPoint cfg.props i, gridPoint cfg.props (i + 1)⟩) := by
  obtain ⟨i, hi, hbracket, hbelow, habove⟩ := bracket_spec h hlo hhi
  refine ⟨i, hi, hbelow, habove, ?_⟩
  rw [segment, if_neg (Nat.not_le_of_lt hlo), if_neg (Nat.not_le_of_lt hhi), hbracket]

theorem weight_eq {b : Bracket} (hlt : b.srcF1 < 2 ^ 32) (hlo : b.srcF0 < f) (hhi : f ≤ b.srcF1) :
    weight f b = ((f - b.srcF0 : Nat) : ℚ) / ((b.srcF1 - b.srcF0 : Nat) : ℚ) := by
  have hdelta : sub32 b.srcF1 b.srcF0 = b.srcF1 - b.srcF0 := sub32_of_le hlt (by omega)
  have hoffset : sub32 f b.srcF0 = f - b.srcF0 := sub32_of_le (by omega) (by omega)
  rw [weight, if_neg (by omega), hdelta, hoffset]

theorem weight_last {b : Bracket} (hlt : b.srcF1 < 2 ^ 32) (hlo : b.srcF0 < f) (hf : f = b.srcF1) :
    weight f b = 1 := by
  rw [weight_eq hlt hlo (Nat.le_of_eq hf), hf, div_self (Nat.cast_ne_zero.mpr (by omega))]

theorem weight_inner {b : Bracket} (hlt : b.srcF1 < 2 ^ 32) (hlo : b.srcF0 < f)
    (hhi : f < b.srcF1) : 0 < weight f b ∧ weight f b < 1 := by
  rw [weight_eq hlt hlo (Nat.le_of_lt hhi)]
  have hnum : (0 : ℚ) < ((f - b.srcF0 : Nat) : ℚ) := Nat.cast_pos.mpr (by omega)
  have hden : (0 : ℚ) < ((b.srcF1 - b.srcF0 : Nat) : ℚ) := Nat.cast_pos.mpr (by omega)
  have hstep : ((f - b.srcF0 : Nat) : ℚ) < ((b.srcF1 - b.srcF0 : Nat) : ℚ) :=
    Nat.cast_lt.mpr (by omega)
  exact ⟨div_pos hnum hden, (div_lt_one hden).mpr hstep⟩

theorem gridPoint_lt (h : CalGrid cfg.props) {i : Nat} (hi : i < cfg.props.calSweepPoints) :
    gridPoint cfg.props i < 2 ^ 32 := Nat.lt_of_le_of_lt (gridFrequency_le h hi) h.lt

@[simp] theorem blend_zero (a b : Sample ℚ) : blend 0 a b = a := by
  simp [blend]

@[simp] theorem blend_one (a b : Sample ℚ) : blend 1 a b = b := by
  simp [blend]

/-- At the upper neighbour the segment gives that point, whichever side of a harmonic change the
weights are taken from. -/
theorem evalSegment_next (h : CalGrid cfg.props) {i : Nat} (hi : i + 2 < cfg.props.calSweepPoints)
    (hlo : gridPoint cfg.props i < f) (hf : f = gridPoint cfg.props (i + 1))
    (data : Nat → Point ℚ) :
    evalSegment data
        (sameHarmonic cfg f ⟨i, gridPoint cfg.props i, gridPoint cfg.props (i + 1)⟩
          (weight f ⟨i, gridPoint cfg.props i, gridPoint cfg.props (i + 1)⟩)) =
      data (i + 1) := by
  rw [weight_last (gridPoint_lt h (by omega)) hlo hf]
  unfold sameHarmonic
  dsimp only
  rw [lastPoint_eq h, ← hf]
  split
  case isTrue =>
    funext cell
    exact blend_one _ _
  case isFalse hne =>
    rw [if_neg (show ¬ cfg.props.calSweepPoints - 1 - 1 ≤ i by omega), sub_self]
    funext cell
    simp only [evalSegment, blend_zero]

theorem next_of_between {p : Properties ℚ} (h : CalGrid p) {i m : Nat} (hi : i < p.calSweepPoints)
    (hf : gridPoint p i = f) (hbelow : gridPoint p m < f) (habove : f ≤ gridPoint p (m + 1))
    (hhi : f < p.calFrequency1) :
    f = gridPoint p (m + 1) ∧ m + 2 < p.calSweepPoints := by
  have hlt : m < i := by
    refine Nat.lt_of_not_le fun hle => ?_
    have hmono : gridPoint p i ≤ gridPoint p m := gridFrequency_mono hle
    omega
  have hmono : gridPoint p (m + 1) ≤ gridPoint p i := gridFrequency_mono hlt
  refine ⟨by omega, Nat.lt_of_not_le fun hle => ?_⟩
  obtain rfl : i = m + 1 := by omega
  have hlast : gridPoint p (m + 1) = p.calFrequency1 := by
    rw [show m + 1 = p.calSweepPoints - 1 by omega]
    exact gridFrequency_last h
  omega

theorem segment_at_grid (h : CalGrid cfg.props) {i : Nat} (hi : i < cfg.props.calSweepPoints) :
    ∃ m < cfg.props.calSweepPoints, gridPoint cfg.props m = gridPoint cfg.props i ∧
      ∀ data, evalSegment data (segment cfg (gridPoint cfg.props i)) = data m := by
  have hsteps := h.steps_pos
  obtain ⟨f, hf⟩ : ∃ f, gridPoint cfg.props i = f := ⟨_, rfl⟩
  rw [hf]
  by_cases hlo : f ≤ cfg.props.calFrequency0
  · refine ⟨0, by omega, ?_, fun data => ?_⟩
    · have hstart : cfg.props.calFrequency0 ≤ f := hf ▸ start_le_gridFrequency
      rw [gridPoint, gridFrequency_zero h]
      omega
    · rw [segment, if_pos hlo]
      rfl
  · by_cases hhi : cfg.props.calFrequency1 ≤ f
    · refine ⟨cfg.props.calSweepPoints - 1, by omega, ?_, fun data => ?_⟩
      · have hstop : f ≤ cfg.props.calFrequency1 := hf ▸ gridFrequency_le h hi
        rw [gridPoint, gridFrequency_last h]
        omega
      · rw [segment, if_neg hlo, if_pos hhi, lastPoint_eq h]
        rfl
    · obtain ⟨m, hm, hbelow, habove, hseg⟩ :=
        segment_inner h (Nat.lt_of_not_le hlo) (Nat.lt_of_not_le hhi)
      rw [hseg]
      by_cases heq : f = gridPoint cfg.props m
      · exact ⟨m, by omega, heq.symm, fun data => by rw [if_pos heq]; rfl⟩
      · obtain ⟨hnext, hroom⟩ := next_of_between h hi hf (by omega) habove (Nat.lt_of_not_le hhi)
        refine ⟨m + 1, hm, hnext.symm, fun data => ?_⟩
        rw [if_neg heq]
        exact evalSegment_next h hroom (by omega) hnext data

theorem sameHarmonic_reads (h : CalGrid cfg.props) {b : Bracket}
    (hi : b.idx + 1 < cfg.props.calSweepPoints) (k : ℚ) :
    ∀ j ∈ reads (sameHarmonic cfg f b k), j < cfg.props.calSweepPoints := by
  unfold sameHarmonic
  rw [lastPoint_eq h]
  dsimp only
  split
  · intro j hj
    simp only [reads, List.mem_cons, List.not_mem_nil, or_false] at hj
    omega
  · split <;> split <;> intro j hj <;>
      simp only [reads, List.mem_cons, List.not_mem_nil, or_false] at hj <;> omega

theorem segment_reads (h : CalGrid cfg.props) (f : Nat) :
    ∀ j ∈ reads (segment cfg f), j < cfg.props.calSweepPoints := by
  have hsteps := h.steps_pos
  by_cases hlo : f ≤ cfg.props.calFrequency0
  · intro j hj
    simp only [segment, if_pos hlo, reads, List.mem_singleton] at hj
    omega
  · by_cases hhi : cfg.props.calFrequency1 ≤ f
    · intro j hj
      simp only [segment, if_neg hlo, if_pos hhi, lastPoint_eq h, reads, List.mem_singleton] at hj
      omega
    · obtain ⟨m, hm, -, -, hseg⟩ :=
        segment_inner h (Nat.lt_of_not_le hlo) (Nat.lt_of_not_le hhi)
      rw [hseg]
      split
      · intro j hj
        rw [List.mem_singleton.mp hj]
        omega
      · exact sameHarmonic_reads h hm _

end Bracketed

/-- On a grid of distinct frequencies the interpolation gives the calibrated points back at their
frequencies, and it never leaves the table. -/
theorem interpolate_grid (cfg : Config ℚ) (h : CalGrid cfg.props)
    (hdistinct : cfg.props.calSweepPoints - 1 ≤ cfg.props.calFrequency1 - cfg.props.calFrequency0) :
    (∀ i < cfg.props.calSweepPoints, ∀ g,
      calInterpolate cfg none (calFrequency cfg.props i) = cfg.props.calData i ∧
        calInterpolate cfg (some i) g = cfg.props.calData i) ∧
      ∀ f, calInterpolate cfg none f = evalSegment cfg.props.calData (segment cfg f) ∧
        ∀ j ∈ reads (segment cfg f), j < cfg.props.calSweepPoints := by
  refine ⟨fun i hi g => ⟨?_, rfl⟩, fun f => ⟨calInterpolate_segment cfg f, segment_reads h f⟩⟩
  obtain ⟨m, hm, hsame, hterms⟩ := segment_at_grid h hi
  have hpoint : m = i := by
    obtain hlt | heq | hgt := Nat.lt_trichotomy m i
    · exact absurd hsame (Nat.ne_of_lt (gridFrequency_lt h hdistinct hlt))
    · exact heq
    · exact absurd hsame.symm (Nat.ne_of_lt (gridFrequency_lt h hdistinct hgt))
  rw [calFrequency_eq h hi, calInterpolate_segment, hterms, hpoint]

/-- A calibration of 21 points over a range, with the threshold of the factory; the real part of
the terms of a point is its index. -/
def calibratedOver (start stop : Nat) : Config ℚ where
  board := .f072
  props :=
    { (defaultVna ℚ .f072).props with
      calFrequency0 := start, calFrequency1 := stop, calSweepPoints := 21
      calData := fun i _ => ⟨i, 0⟩ }
  grid := (defaultVna ℚ .f072).grid
  setup := factorySetup
  mask := ⟨true, true, false, false, false, true, true, false⟩
  electricalDelayS11 := 0
  electricalDelayS21 := 0
  s21Offset := 0
  sinCos := fun _ => (0, 1)
  expf := fun _ => 1
  ln10 := 2
  response := fun _ _ => ⟨0, 0⟩

theorem interpolate_grid_fm :
    (∀ i < 21, ∀ g,
      calInterpolate (calibratedOver 87500000 108000000) none
          (calFrequency (calibratedOver 87500000 108000000).props i) = (fun _ => ⟨i, 0⟩) ∧
        calInterpolate (calibratedOver 87500000 108000000) (some i) g = (fun _ => ⟨i, 0⟩)) ∧
      ∀ f, calInterpolate (calibratedOver 87500000 108000000) none f =
          evalSegment (calibratedOver 87500000 108000000).props.calData
            (segment (calibratedOver 87500000 108000000) f) ∧
        ∀ j ∈ reads (segment (calibratedOver 87500000 108000000) f), j < 21 :=
  interpolate_grid (calibratedOver 87500000 108000000) (by decide) (by decide)

end NanoVNA.CalibrationSegments
