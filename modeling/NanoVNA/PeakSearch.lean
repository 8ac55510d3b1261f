import Mathlib.Analysis.SpecialFunctions.Log.Basic
import Mathlib.Tactic.IntervalCases
import Mathlib.Tactic.Linarith
import Mathlib.Tactic.NormNum
import NanoVNA.SampleSearch

namespace NanoVNA.PeakSearch

open NanoVNA.MatchQuadratic NanoVNA.SampleSearch

/-! ### The search for the largest or smallest sample -/

section Code

variable {K : Type} [Field K] [LinearOrder K]

/-- `_greaterf` and `_lesserf`; `true` is `MEASURE_SEARCH_MAX`. -/
def compare (mode : Bool) (x y : K) : Bool :=
  if mode then decide (y < x) else decide (x < y)

def peakScan (get : ℕ → K) (mode : Bool) : ℕ → ℕ × K
  | 0 => (0, get 0)
  | i + 1 =>
    let best := peakScan get mode i
    if compare mode (get (i + 1)) best.2 then (i + 1, get (i + 1)) else best

/-- The leading coefficient, times 16, of the parabola through three samples. -/
def curvature (y1 y2 y3 : K) : K := 8 * (y1 - 2 * y2 + y3)

/-- The value that is returned, and what `xp` points to. -/
def searchPeakValue (get : ℕ → K) (points : ℕ) (mode : Bool) (xp : ℕ) : K × ℕ :=
  let (x, y2) := peakScan get mode (points - 1)
  if x < 1 ∨ points - 1 ≤ x then (y2, xp)
  else
    let y1 := get (x - 1)
    let y3 := get (x + 1)
    if y1 = y3 then (y2, x)
    else
      let a := curvature y1 y2 y3
      let b := y3 - y1
      if |a| < vnaEpsilon then (y2, x) else (y2 - b * b / a, x)

/-! ### The filter measurement -/

/-- `s21_pass`; `f` has an entry for each attenuation. -/
structure Pass (K : Type) where
  f : List K
  decade : K
  octave : K

structure FilterMeasure (K : Type) where
  fmax : K
  vmax : K
  loPass : Pass K
  hiPass : Pass K
  fCenter : K
  bw3dB : K
  bw6dB : K
  q : K

structure Marker (K : Type) where
  index : ℕ
  frequency : K

structure Sweep (K : Type) where
  points : ℕ
  frequency : ℕ → K
  step : K
  s21logmag : ℕ → K

variable (s : Sweep K) (sqrt log : K → K)

def setMarkerIndex (markers : ℕ → Marker K) (m idx : ℕ) : ℕ → Marker K :=
  let idx := min idx (s.points - 1)
  Function.update markers m ⟨idx, s.frequency idx⟩

def filterAtt : List K := [3, 6, 10, 20]

/-- The calls of `measure_search_value` in turn; each one goes on from the index of the last. -/
def findAttenuations (max : K) (mode : Mode) :
    List K → Option ℕ → ℕ → (ℕ → Marker K) → List K × (ℕ → Marker K)
  | [], _, _, markers => ([], markers)
  | att :: rest, m, idx, markers =>
    match measureSearchValue s.s21logmag (max - att) s.points sqrt s.frequency s.step mode m
        idx with
    | none =>
      let r := findAttenuations max mode rest none idx markers
      (0 :: r.1, r.2)
    | some found =>
      let markers := match found.marker with
        | some (m, x) => setMarkerIndex s markers m x
        | none => markers
      let r := findAttenuations max mode rest none found.idx markers
      (found.frequency :: r.1, r.2)

def findFilterPass (max : K) (idx : ℕ) (mode : Mode) (markers : ℕ → Marker K) :
    Pass K × (ℕ → Marker K) :=
  let m := if mode = .left then 1 else 2
  let (f, markers) := findAttenuations s sqrt max mode filterAtt (some m) idx markers
  let f10 := f.getD 2 0
  let f20 := f.getD 3 0
  if f10 ≠ 0 ∧ f20 ≠ 0 then
    let k := |log f20 - log f10|
    (⟨f, 10 * log 10 / k, 10 * log 2 / k⟩, markers)
  else (⟨f, 0, 0⟩, markers)

def s21MeasureFilterThreshold : K := -50

/-- `prepare_filter`, up to the request to draw the area of the results. -/
def prepareFilter (cache : FilterMeasure K) (markers : ℕ → Marker K) :
    FilterMeasure K × (ℕ → Marker K) :=
  let (vmax, xp) := searchPeakValue s.s21logmag s.points true 0
  let cache := { cache with vmax }
  if s21MeasureFilterThreshold ≤ vmax then
    let markers := setMarkerIndex s markers 0 xp
    let (hiPass, markers) := findFilterPass s sqrt log vmax xp .left markers
    let (loPass, markers) := findFilterPass s sqrt log vmax xp .right markers
    let lo3dB := loPass.f.getD 0 0
    let hi3dB := hiPass.f.getD 0 0
    let fCenter := lo3dB * hi3dB
    let cache := { cache with fmax := s.frequency xp, hiPass, loPass, fCenter }
    if fCenter ≠ 0 then
      let bw3dB := lo3dB - hi3dB
      let bw6dB := loPass.f.getD 1 0 - hiPass.f.getD 1 0
      let fCenter := sqrt fCenter
      ({ cache with bw3dB, bw6dB, fCenter, q := fCenter / bw3dB }, markers)
    else (cache, markers)
  else (cache, markers)

end Code

/-! ### The first extremal sample -/

section Extremal

variable {K : Type} [LinearOrder K]

structure FirstExtremal (get : ℕ → K) (points : ℕ) (mode : Bool) (k : ℕ) : Prop where
  lt : k < points
  best : ∀ j < points, ¬ compare mode (get j) (get k)
  first : ∀ j < k, compare mode (get k) (get j)

variable {get : ℕ → K} {mode : Bool} {x y z : K}

theorem compare_trans (hxy : compare mode x y) (hyz : ¬ compare mode z y) :
    compare mode x z := by
  cases mode <;> simp only [compare, Bool.false_eq_true, if_true, if_false, decide_eq_true_eq,
    not_lt] at *
  · exact hxy.trans_le hyz
  · exact hyz.trans_lt hxy

theorem compare_self : ¬ compare mode x x := by
  cases mode <;> simp [compare]

theorem compare_asymm (h : compare mode x y) : ¬ compare mode y x := by
  cases mode <;> simp only [compare, Bool.false_eq_true, if_true, if_false, decide_eq_true_eq] at *
  · exact h.asymm
  · exact h.asymm

theorem peakScan_value (get : ℕ → K) (mode : Bool) (i : ℕ) :
    (peakScan get mode i).2 = get (peakScan get mode i).1 := by
  induction i with
  | zero => rfl
  | succ i ih =>
    simp only [peakScan]
    split
    next => rfl
    next => exact ih

theorem peakScan_first (get : ℕ → K) (mode : Bool) (i : ℕ) :
    FirstExtremal get (i + 1) mode (peakScan get mode i).1 := by
  induction i with
  | zero =>
    refine ⟨Nat.zero_lt_one, fun j hj => ?_, fun j hj => absurd hj (Nat.not_lt_zero j)⟩
    rw [Nat.lt_one_iff.mp hj]
    exact compare_self
  | succ i ih =>
    have hvalue := peakScan_value get mode i
    simp only [peakScan]
    split
    next h =>
      rw [hvalue] at h
      have hworse (j : ℕ) (hj : j < i + 1) : compare mode (get (i + 1)) (get j) :=
        compare_trans h (ih.best j hj)
      refine ⟨Nat.lt_succ_self (i + 1), fun j hj => ?_, hworse⟩
      obtain hj | rfl := Nat.lt_succ_iff_lt_or_eq.mp hj
      · exact compare_asymm (hworse j hj)
      · exact compare_self
    next h =>
      rw [hvalue] at h
      refine ⟨Nat.lt_succ_of_lt ih.lt, fun j hj => ?_, ih.first⟩
      obtain hj | rfl := Nat.lt_succ_iff_lt_or_eq.mp hj
      · exact ih.best j hj
      · exact h

end Extremal

/-! ### The vertex -/

section Vertex

variable {y1 y2 y3 : ℝ} {mode : Bool}

noncomputable def parabola (y1 y2 y3 t : ℝ) : ℝ :=
  y1 * (t * (t - 1) / 2) + y2 * (1 - t * t) + y3 * (t * (t + 1) / 2)

theorem parabola_through : parabola y1 y2 y3 (-1) = y1 ∧ parabola y1 y2 y3 0 = y2 ∧
    parabola y1 y2 y3 1 = y3 := by
  norm_num [parabola]

def IsVertexValue (y1 y2 y3 : ℝ) (mode : Bool) (v : ℝ) : Prop :=
  v ∈ Set.range (parabola y1 y2 y3) ∧ ∀ t, ¬ compare mode (parabola y1 y2 y3 t) v

theorem parabola_vertex (ha : curvature y1 y2 y3 ≠ 0) (t : ℝ) :
    parabola y1 y2 y3 t = y2 - (y3 - y1) * (y3 - y1) / curvature y1 y2 y3 +
      curvature y1 y2 y3 * (t / 4 + (y3 - y1) / curvature y1 y2 y3) ^ 2 := by
  have hcurve : y2 = (y1 + y3) / 2 - curvature y1 y2 y3 / 16 := by
    rw [curvature]
    ring
  generalize curvature y1 y2 y3 = a at *
  rw [parabola]
  field_simp
  rw [hcurve]
  ring

theorem curvature_sign (h1 : ¬ compare mode y1 y2) (h3 : ¬ compare mode y3 y2) (hne : y1 ≠ y3) :
    if mode then curvature y1 y2 y3 < 0 else 0 < curvature y1 y2 y3 := by
  cases mode <;> simp only [compare, Bool.false_eq_true, if_true, if_false, decide_eq_true_eq,
    not_lt, curvature] at *
  · obtain h | h := lt_or_gt_of_ne hne <;> linarith
  · obtain h | h := lt_or_gt_of_ne hne <;> linarith

theorem isVertexValue (h1 : ¬ compare mode y1 y2) (h3 : ¬ compare mode y3 y2) (hne : y1 ≠ y3) :
    IsVertexValue y1 y2 y3 mode
      (y2 - (y3 - y1) * (y3 - y1) / curvature y1 y2 y3) := by
  have hsign := curvature_sign h1 h3 hne
  have ha : curvature y1 y2 y3 ≠ 0 := by
    cases mode
    · exact (ne_of_gt hsign)
    · exact (ne_of_lt hsign)
  refine ⟨⟨-(4 * ((y3 - y1) / curvature y1 y2 y3)), ?_⟩, fun t => ?_⟩
  · rw [parabola_vertex ha]
    ring
  · rw [parabola_vertex ha]
    have hsquare := sq_nonneg (t / 4 + (y3 - y1) / curvature y1 y2 y3)
    cases mode
    · have hterm := mul_nonneg (le_of_lt hsign) hsquare
      simpa [compare] using hterm
    · have hterm := mul_nonpos_of_nonpos_of_nonneg (le_of_lt hsign) hsquare
      simpa [compare] using hterm

end Vertex

/-! ### What is found -/

section Results

variable {get : ℕ → ℝ} {points k : ℕ} {mode : Bool}

/-- The extremal sample is at an end, its neighbours are equal, or the three are nearly on a
line. -/
def AtSample (get : ℕ → ℝ) (points k : ℕ) : Prop :=
  k = 0 ∨ k = points - 1 ∨ get (k - 1) = get (k + 1) ∨
    |curvature (get (k - 1)) (get k) (get (k + 1))| < vnaEpsilon

/-- The value at an extremal sample, and the index that is left in `xp`. -/
structure PeakAt (get : ℕ → ℝ) (points : ℕ) (mode : Bool) (xp k : ℕ) (r : ℝ × ℕ) : Prop where
  sample : AtSample get points k → r.1 = get k
  vertex : ¬ AtSample get points k →
    IsVertexValue (get (k - 1)) (get k) (get (k + 1)) mode r.1
  neverWorse : ¬ compare mode (get k) r.1
  index : r.2 = if k = 0 ∨ k = points - 1 then xp else k

theorem peakAt_sample {xp k : ℕ} (h : AtSample get points k) :
    PeakAt get points mode xp k (get k, if k = 0 ∨ k = points - 1 then xp else k) :=
  ⟨fun _ => rfl, fun hnot => absurd h hnot, compare_self, rfl⟩

theorem peakAt_first (hpoints : 3 ≤ points) (xp : ℕ) :
    ∃ k, FirstExtremal get points mode k ∧
      PeakAt get points mode xp k (searchPeakValue get points mode xp) := by
  have hfirst := peakScan_first get mode (points - 1)
  have hvalue := peakScan_value get mode (points - 1)
  rw [Nat.sub_add_cancel (by omega)] at hfirst
  refine ⟨(peakScan get mode (points - 1)).1, hfirst, ?_⟩
  unfold searchPeakValue
  dsimp only
  rw [hvalue]
  generalize (peakScan get mode (points - 1)).1 = k at *
  have hlt := hfirst.lt
  split
  next hend =>
    have hend' : k = 0 ∨ k = points - 1 := by omega
    have hpeak := @peakAt_sample get points mode xp k (hend'.imp_right Or.inl)
    rwa [if_pos hend'] at hpeak
  next hinner =>
    have hinner' : ¬ (k = 0 ∨ k = points - 1) := by omega
    split
    next heq =>
      have hpeak := @peakAt_sample get points mode xp k (Or.inr (Or.inr (Or.inl heq)))
      rwa [if_neg hinner'] at hpeak
    next hne =>
      split
      next hflat =>
        have hpeak := @peakAt_sample get points mode xp k (Or.inr (Or.inr (Or.inr hflat)))
        rwa [if_neg hinner'] at hpeak
      next hbend =>
        have hvertex := isVertexValue (hfirst.best (k - 1) (by omega))
          (hfirst.best (k + 1) (by omega)) hne
        refine ⟨fun h => absurd h ?_, fun _ => hvertex, ?_, (if_neg hinner').symm⟩
        · unfold AtSample
          tauto
        · have hat := hvertex.2 0
          rwa [parabola_through.2.1] at hat

theorem FirstExtremal.unique {j : ℕ} (hj : FirstExtremal get points mode j)
    (hk : FirstExtremal get points mode k) : j = k := by
  obtain hlt | heq | hlt := lt_trichotomy j k
  · exact absurd (hk.first j hlt) (hj.best k hk.lt)
  · exact heq
  · exact absurd (hj.first k hlt) (hk.best j hj.lt)

end Results

/-! ### The marker on the largest sample -/

section Filter

variable {s : Sweep ℝ} {sqrt log : ℝ → ℝ} {markers : ℕ → Marker ℝ}

theorem marker_of_found {get frequency : ℕ → ℝ} {y step : ℝ} {points idx : ℕ} {mode : Mode}
    {m : Option ℕ} {found : Found ℝ}
    (h : measureSearchValue get y points sqrt frequency step mode m idx = some found) :
    found.marker = m.map fun m => (m, found.idx) := by
  unfold measureSearchValue at h
  dsimp only at h
  split at h
  next => cases h
  next =>
    cases h
    rfl

theorem setMarkerIndex_ne {m j : ℕ} (hj : j ≠ m) (idx : ℕ) :
    setMarkerIndex s markers m idx j = markers j :=
  Function.update_of_ne hj _ _

theorem findAttenuations_other {max : ℝ} {mode : Mode} {j : ℕ} (atts : List ℝ) (m : Option ℕ)
    (hj : m ≠ some j) (idx : ℕ) (markers : ℕ → Marker ℝ) :
    (findAttenuations s sqrt max mode atts m idx markers).2 j = markers j := by
  induction atts generalizing m idx markers with
  | nil => rfl
  | cons att rest ih =>
    unfold findAttenuations
    split
    next => exact ih none (by simp) idx markers
    next found hfound =>
      have hmarker := marker_of_found hfound
      dsimp only
      rw [ih none (by simp), hmarker]
      cases m with
      | none => rfl
      | some m =>
        refine setMarkerIndex_ne ?_ found.idx
        rintro rfl
        exact hj rfl

theorem findFilterPass_first (max : ℝ) (idx : ℕ) (mode : Mode) (markers : ℕ → Marker ℝ) :
    (findFilterPass s sqrt log max idx mode markers).2 0 = markers 0 := by
  have hmarkers : (findFilterPass s sqrt log max idx mode markers).2 =
      (findAttenuations s sqrt max mode filterAtt (some (if mode = .left then 1 else 2)) idx
        markers).2 := by
    unfold findFilterPass
    dsimp only
    generalize (if mode = .left then 1 else 2) = m
    split <;> rfl
  rw [hmarkers]
  refine findAttenuations_other filterAtt _ ?_ idx markers
  split <;> simp

theorem prepareFilter_vmax (cache : FilterMeasure ℝ) (markers : ℕ → Marker ℝ) :
    (prepareFilter s sqrt log cache markers).1.vmax =
      (searchPeakValue s.s21logmag s.points true 0).1 := by
  unfold prepareFilter
  dsimp only
  split
  next => split <;> rfl
  next => rfl

theorem prepareFilter_marker (cache : FilterMeasure ℝ) (markers : ℕ → Marker ℝ)
    (hdetect : s21MeasureFilterThreshold ≤ (prepareFilter s sqrt log cache markers).1.vmax) :
    let xp := (searchPeakValue s.s21logmag s.points true 0).2
    (prepareFilter s sqrt log cache markers).2 0 = setMarkerIndex s markers 0 xp 0 ∧
      (prepareFilter s sqrt log cache markers).1.fmax = s.frequency xp := by
  rw [prepareFilter_vmax] at hdetect
  unfold prepareFilter
  dsimp only
  rw [if_pos hdetect]
  split
  next => simp only [findFilterPass_first, and_self]
  next => simp only [findFilterPass_first, and_self]

/-- The peak is found at the first extremal sample, and the filter is measured from the first
largest one, unless that is the last sample. -/
theorem peak_reported (get : ℕ → ℝ) (s : Sweep ℝ) (hpoints : 3 ≤ s.points) (mode : Bool) (xp : ℕ)
    (sqrt log : ℝ → ℝ) (cache : FilterMeasure ℝ) (markers : ℕ → Marker ℝ) :
    (∃ k, FirstExtremal get s.points mode k ∧
      PeakAt get s.points mode xp k (searchPeakValue get s.points mode xp)) ∧
    ∀ k, FirstExtremal s.s21logmag s.points true k → k ≠ s.points - 1 →
      let r := prepareFilter s sqrt log cache markers
      s21MeasureFilterThreshold ≤ r.1.vmax →
        (r.2 0).index = k ∧ (r.2 0).frequency = s.frequency k ∧ r.1.fmax = s.frequency k := by
  refine ⟨peakAt_first hpoints xp, fun k hfirst hlast => ?_⟩
  intro r hdetect
  obtain ⟨hmarker, hfmax⟩ := prepareFilter_marker cache markers hdetect
  obtain ⟨j, hj, hpeak⟩ := @peakAt_first s.s21logmag s.points true hpoints 0
  obtain rfl := hfirst.unique hj
  have hxp : (searchPeakValue s.s21logmag s.points true 0).2 = k := by
    rw [hpeak.index]
    split <;> omega
  have hle : min k (s.points - 1) = k := min_eq_left (Nat.le_sub_one_of_lt hfirst.lt)
  rw [hxp] at hmarker hfmax
  simp only [r, hmarker, hfmax, setMarkerIndex, hle, Function.update_self, and_self]

noncomputable def hill : Sweep ℝ where
  points := 3
  frequency i := i
  step := 1
  s21logmag i := if i = 1 then 0 else -10

noncomputable def noFilter : FilterMeasure ℝ where
  fmax := 0
  vmax := 0
  loPass := ⟨[], 0, 0⟩
  hiPass := ⟨[], 0, 0⟩
  fCenter := 0
  bw3dB := 0
  bw6dB := 0
  q := 0

theorem peak_reported_hill : 3 ≤ hill.points ∧
    (prepareFilter hill Real.sqrt Real.log noFilter fun _ => ⟨0, 0⟩).1.fmax = hill.frequency 1 := by
  have hvmax := @prepareFilter_vmax hill Real.sqrt Real.log noFilter fun _ => ⟨0, 0⟩
  have hscan : searchPeakValue hill.s21logmag hill.points true 0 = (0, 1) := by
    norm_num [searchPeakValue, peakScan, compare, hill]
  have hfirst : FirstExtremal hill.s21logmag hill.points true 1 := by
    refine ⟨by simp [hill], fun j _ => ?_, fun j hj => ?_⟩
    · simp only [compare, hill, if_true]
      split <;> norm_num
    · norm_num [compare, hill, Nat.lt_one_iff.mp hj]
  rw [hscan] at hvmax
  obtain ⟨-, hfilter⟩ := peak_reported hill.s21logmag hill (le_refl 3) true 0 Real.sqrt Real.log
    noFilter fun _ => ⟨0, 0⟩
  refine ⟨le_refl 3, (hfilter 1 hfirst (by simp [hill]) ?_).2.2⟩
  rw [hvmax]
  norm_num [s21MeasureFilterThreshold]

/-- The value and the index without the exceptions for nearly flat peaks and for the ends. -/
structure Meets (get : ℕ → ℝ) (points : ℕ) (mode : Bool) (k : ℕ) (r : ℝ × ℕ) : Prop where
  sample : (k = 0 ∨ k = points - 1 ∨ get (k - 1) = get (k + 1)) → r.1 = get k
  vertex : ¬ (k = 0 ∨ k = points - 1 ∨ get (k - 1) = get (k + 1)) →
    IsVertexValue (get (k - 1)) (get k) (get (k + 1)) mode r.1
  index : ∀ j < points, ¬ compare mode (get j) (get r.2)

noncomputable def flatPeak (i : ℕ) : ℝ := (if i = 1 then 2 else i / 2) / 10 ^ 11

/-- The flat peak is not refined, and a peak at the last sample leaves the index. -/
theorem not_meets :
    (¬ ∃ k, FirstExtremal flatPeak 3 true k ∧
      Meets flatPeak 3 true k (searchPeakValue flatPeak 3 true 0)) ∧
    ¬ ∃ k, FirstExtremal (fun i => (i : ℝ)) 3 true k ∧
      Meets (fun i => (i : ℝ)) 3 true k (searchPeakValue (fun i => (i : ℝ)) 3 true 0) := by
  constructor
  · have hvalue : searchPeakValue flatPeak 3 true 0 = (flatPeak 1, 1) := by
      norm_num [searchPeakValue, peakScan, compare, flatPeak, curvature, vnaEpsilon]
    rintro ⟨k, hfirst, hmeets⟩
    have hlt := hfirst.lt
    have hbest := hfirst.best 1 (by omega)
    obtain rfl : k = 1 := by
      interval_cases k
      · norm_num [compare, flatPeak] at hbest
      · rfl
      · norm_num [compare, flatPeak] at hbest
    have hvertex := hmeets.vertex (by norm_num [flatPeak])
    rw [hvalue] at hvertex
    have hat := hvertex.2 (1 / 6)
    norm_num [compare, flatPeak, parabola] at hat
  · rintro ⟨k, -, hmeets⟩
    have hat := hmeets.index 2 (by omega)
    norm_num [searchPeakValue, peakScan, compare] at hat

end Filter

end NanoVNA.PeakSearch
