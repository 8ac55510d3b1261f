import Mathlib.Algebra.Order.Archimedean.Basic
import Mathlib.Algebra.Order.Floor.Ring
import Mathlib.Data.Rat.Floor
import Mathlib.Tactic.FieldSimp
import Mathlib.Tactic.Linarith
import Mathlib.Tactic.LinearCombination
import Mathlib.Tactic.NormNum
import Mathlib.Tactic.Positivity
import Mathlib.Tactic.Ring
import NanoVNA.DrawAll
import NanoVNA.TraceCells
import NanoVNA.Truncation

namespace NanoVNA.ChartPositions

open NanoVNA.DeviceState NanoVNA.PlotLayout NanoVNA.DrawAll
open NanoVNA.TraceCells (trcSmith trcPolar)
open NanoVNA.Truncation

section Chart

variable (l : Layout)

/-- `WIDTH`: the plot area has a margin of five pixels on each side. -/
def width : Int := l.areaWidthNormal - l.cellOffsetX - 5

def height : Int := l.areaHeightNormal - 1

def pCenterX : Int := l.cellOffsetX + width l / 2

def pCenterY : Int := height l / 2

def pRadius : Int := height l / 2

end Chart

section Positions

variable {K : Type} [Field K] [LinearOrder K] [IsStrictOrderedRing K] [FloorRing K]

def float2int (v : K) : Int := truncate (v + 1 / 2)

def int16 (n : Int) : Int := (n + 32768) % 65536 - 32768

def clampTo (lo hi n : Int) : Int := if n < lo then lo else if hi < n then hi else n

variable (l : Layout)

def placeX (v : K) : Int :=
  clampTo l.cellOffsetX (l.cellOffsetX + width l) (int16 (pCenterX l + float2int v))

def placeY (v : K) : Int := clampTo 0 (height l) (int16 (pCenterY l - float2int v))

def cartesianScale (v : Sample K) (scale : K) : Int × Int :=
  (placeX l (v.re * scale), placeY l (v.im * scale))

def mag2 (v : Sample K) : K := v.re * v.re + v.im * v.im

def smithSample (v : Sample K) : Sample K :=
  ⟨2 * v.re / (1 + mag2 v), 2 * v.im / (1 + mag2 v)⟩

def smithPosition (v : Sample K) (scale : K) : Int × Int :=
  if 1 / 1000 < 1 + mag2 v then cartesianScale l (smithSample v) scale
  else (clampTo l.cellOffsetX (l.cellOffsetX + width l) (pCenterX l),
    clampTo 0 (height l) (pCenterY l))

def roundPosition (type : Nat) (scale : K) (v : Sample K) : Nat × Nat :=
  let rscale := (pRadius l : K) / scale
  let p := if type = trcSmith then smithPosition l v rscale else cartesianScale l v rscale
  (p.1.toNat, p.2.toNat)

variable {l}

/-- `trace_into_index` for a trace on the round grid. -/
def roundTrace (e : Measured) (s : Plot l) (t : Fin 4) (type : Nat) (scale : K)
    (measured : Nat → Sample K) : Plot l :=
  traceIntoIndex
    { e with coord := Function.update e.coord t fun i => roundPosition l type scale (measured i) }
    s t

def screenPosition (s : Plot l) (t : Fin 4) (i : Nat) : Nat × Nat :=
  ((s.view.trace t).x i, (s.view.trace t).y i)

end Positions

section Grid

/-- What `render_smith_grid_cell` draws: the rim, the real axis and six arcs between them. -/
inductive Arc
  | r0
  | x0
  | r3
  | r1
  | rThird
  | x2
  | x1
  | xHalf
  deriving DecidableEq, Repr

/-- The left side of the equation of an arc on a chart of radius `r`; both signs of a reactance
are one arc, in the absolute value of `y`. -/
def Arc.curve {K : Type} [CommRing K] (r x y : K) : Arc → K
  | r0 => x * x + y * y - r * r
  | x0 => y
  | r3 => 2 * (x * x + y * y) - 3 * r * x + r * r
  | r1 => x * x + y * y - r * x
  | rThird => 2 * (x * x + y * y) - r * x - r * r
  | x2 => x * x + y * y - (2 * r * x + r * y) + r * r
  | x1 => x * x + y * y - (2 * r * x + 2 * (r * y)) + r * r
  | xHalf => x * x + y * y - (2 * r * x + 4 * r * y) + r * r

def arcPixel (r x y : Int) : Bool :=
  let distance := x * x + y * y
  let rY := r * |y|
  let d2 := distance - (2 * r * x + rY) + r * r + r / 2
  let d3 := distance - 3 * r / 2 * x + r * r / 2 + r / 4
  let d1 := distance - (2 * r * x + 2 * rY) + r * r + r
  let dr := distance - r * x + r / 2
  let dh := distance - (2 * r * x + 4 * r * |y|) + r * r + 2 * r
  let dt := distance - r / 2 * x - r * r / 2 + 3 * r / 4
  decide ((0 ≤ x ∧ ((r / 2 ≤ x ∧ (|d2| ≤ r ∨ 0 ≤ d3 ∧ d3 ≤ r / 2)) ∨ |d1| ≤ 2 * r ∨
    0 ≤ dr ∧ dr ≤ r)) ∨ |dh| ≤ 4 * r ∨ |dt| ≤ 3 * r / 2)

def smithGridPixel (r x y : Int) : Bool :=
  if r * r + r < x * x + y * y then false
  else if r * r - r < x * x + y * y then true
  else if y = 0 then true
  else arcPixel r x y

variable {K : Type} [Field K] [LinearOrder K]

def toOpen (v : Sample K) : K := (1 - v.re) * (1 - v.re) + v.im * v.im

def normResistance (v : Sample K) : K := (1 - mag2 v) / toOpen v

def normReactance (v : Sample K) : K := 2 * v.im / toOpen v

def Arc.On (v : Sample K) : Arc → Prop
  | r0 => normResistance v = 0
  | x0 => |normReactance v| = 0
  | r3 => normResistance v = 3
  | r1 => normResistance v = 1
  | rThird => normResistance v = 1 / 3
  | x2 => |normReactance v| = 2
  | x1 => |normReactance v| = 1
  | xHalf => |normReactance v| = 1 / 2

def drawn (type : Nat) (v : Sample K) : Sample K :=
  if type = trcSmith ∧ 1 / 1000 < 1 + mag2 v then smithSample v else v

end Grid

section Grid

theorem smithGridPixel_of_arcPixel {r x y : Int} (hr : 0 ≤ r) (hin : x * x + y * y ≤ r * r)
    (h : x * x + y * y ≤ r * r - r → y ≠ 0 → arcPixel r x y) : smithGridPixel r x y := by
  unfold smithGridPixel
  rw [if_neg (by omega)]
  split_ifs with hrim haxis
  · rfl
  · rfl
  · exact h (by omega) haxis

theorem smithGridPixel_of_curve {r x y : Int} (hr : 0 < r) (heven : r % 2 = 0)
    (hin : x * x + y * y ≤ r * r) {a : Arc} (h : a.curve r x |y| = 0) :
    smithGridPixel r x y := by
  obtain ⟨k, rfl⟩ : ∃ k, r = 2 * k := ⟨r / 2, by omega⟩
  have hyy : y * y = |y| * |y| := (abs_mul_abs_self y).symm
  have hk : 0 < k := by omega
  have e1 : 2 * k / 2 = k := by omega
  have e2 : 3 * (2 * k) / 2 = 3 * k := by omega
  have e3 : 2 * k * (2 * k) / 2 = 2 * (k * k) := by
    rw [show 2 * k * (2 * k) = 2 * (2 * (k * k)) by ring]
    omega
  refine smithGridPixel_of_arcPixel hr.le hin fun hrim haxis => ?_
  simp only [arcPixel, e1, e2, e3, decide_eq_true_eq, hyy]
  rw [hyy] at hin hrim
  have hy : 0 ≤ |y| := abs_nonneg y
  generalize |y| = u at *
  cases a with
  | r0 =>
    simp only [Arc.curve] at h
    omega
  | x0 =>
    simp only [Arc.curve] at h
    rw [h, mul_zero, mul_self_eq_zero] at hyy
    exact absurd hyy haxis
  | r3 =>
    have hd : x * x + u * u - 3 * k * x + 2 * (k * k) = 0 := by
      simp only [Arc.curve] at h
      linarith
    have hx : k ≤ x := by nlinarith
    refine Or.inl ⟨by omega, Or.inl ⟨hx, Or.inr ?_⟩⟩
    rw [hd]
    omega
  | r1 =>
    have hd : x * x + u * u - 2 * k * x = 0 := h
    have hx : 0 ≤ x := by nlinarith
    refine Or.inl ⟨hx, Or.inr (Or.inr ?_)⟩
    rw [hd]
    omega
  | rThird =>
    have hd : x * x + u * u - k * x - 2 * (k * k) = 0 := by
      simp only [Arc.curve] at h
      linarith
    refine Or.inr (Or.inr ?_)
    rw [hd, zero_add, abs_of_nonneg (by omega)]
    omega
  | x2 =>
    have hd : x * x + u * u - (2 * (2 * k) * x + 2 * k * u) + 2 * k * (2 * k) = 0 := h
    have hx : k ≤ x := by nlinarith [sq_nonneg (u - k)]
    refine Or.inl ⟨by omega, Or.inl ⟨hx, Or.inl ?_⟩⟩
    rw [hd, zero_add, abs_of_pos hk]
    omega
  | x1 =>
    have hd : x * x + u * u - (2 * (2 * k) * x + 2 * (2 * k * u)) + 2 * k * (2 * k) = 0 := h
    have hx : 0 ≤ x := by nlinarith [sq_nonneg (u - 2 * k)]
    refine Or.inl ⟨hx, Or.inr (Or.inl ?_)⟩
    rw [hd, zero_add, abs_of_pos hr]
    omega
  | xHalf =>
    have hd : x * x + u * u - (2 * (2 * k) * x + 4 * (2 * k) * u) + 2 * k * (2 * k) = 0 := h
    refine Or.inr (Or.inl ?_)
    rw [hd, zero_add, abs_of_pos (by omega)]
    omega

variable {K : Type} [Field K] [LinearOrder K] [IsStrictOrderedRing K]

omit [LinearOrder K] [IsStrictOrderedRing K] in
theorem Arc.curve_mul (a : Arc) (r x y : K) :
    a.curve r (r * x) (r * y) = (if a = x0 then r else r * r) * a.curve 1 x y := by
  cases a <;> simp only [Arc.curve, reduceCtorEq, if_true, if_false] <;> ring

theorem eq_open_of_toOpen {v : Sample K} (h : toOpen v = 0) : v.re = 1 ∧ v.im = 0 := by
  have hre := mul_self_nonneg (1 - v.re)
  have him := mul_self_nonneg v.im
  unfold toOpen at h
  have h1 := mul_self_eq_zero.mp (le_antisymm (by linarith) hre)
  have h2 := mul_self_eq_zero.mp (le_antisymm (by linarith) him)
  exact ⟨by linarith, h2⟩

theorem one_sub_mag2 {v : Sample K} {c : K} (h : normResistance v = c) :
    1 - mag2 v = c * toOpen v := by
  by_cases h0 : toOpen v = 0
  · obtain ⟨hre, him⟩ := eq_open_of_toOpen h0
    simp [h0, mag2, hre, him]
  · rw [← h]
    exact (div_mul_cancel₀ _ h0).symm

theorem two_mul_abs_im {v : Sample K} {c : K} (h : |normReactance v| = c) :
    2 * |v.im| = c * toOpen v := by
  by_cases h0 : toOpen v = 0
  · simp [h0, (eq_open_of_toOpen h0).2]
  · have hpos : 0 < toOpen v :=
      lt_of_le_of_ne (add_nonneg (mul_self_nonneg _) (mul_self_nonneg _)) (Ne.symm h0)
    rw [← h, normReactance, abs_div, abs_mul, abs_two, abs_of_pos hpos]
    exact (div_mul_cancel₀ _ h0).symm

theorem Arc.curve_of_on {v : Sample K} {a : Arc} (h : a.On v) : a.curve 1 v.re |v.im| = 0 := by
  have hsq : |v.im| * |v.im| = v.im * v.im := abs_mul_abs_self v.im
  cases a with
  | r0 =>
    have := one_sub_mag2 h
    simp only [mag2, toOpen] at this
    simp only [Arc.curve, hsq]
    linear_combination -this
  | x0 =>
    have := two_mul_abs_im h
    simp only [Arc.curve]
    linear_combination this / 2
  | r3 =>
    have := one_sub_mag2 h
    simp only [mag2, toOpen] at this
    simp only [Arc.curve, hsq]
    linear_combination -this / 2
  | r1 =>
    have := one_sub_mag2 h
    simp only [mag2, toOpen] at this
    simp only [Arc.curve, hsq]
    linear_combination -this / 2
  | rThird =>
    have := one_sub_mag2 h
    simp only [mag2, toOpen] at this
    simp only [Arc.curve, hsq]
    linear_combination -3 * this / 2
  | x2 =>
    have := two_mul_abs_im h
    simp only [toOpen] at this
    simp only [Arc.curve, hsq]
    linear_combination -this / 2
  | x1 =>
    have := two_mul_abs_im h
    simp only [toOpen] at this
    simp only [Arc.curve, hsq]
    linear_combination -this
  | xHalf =>
    have := two_mul_abs_im h
    simp only [toOpen] at this
    simp only [Arc.curve, hsq]
    linear_combination -2 * this

end Grid

section Places

variable {K : Type} [Field K] [LinearOrder K] [IsStrictOrderedRing K] [FloorRing K]

/-- Where the rounded value passes from below `j` to `j` or above: the edges of the pixels, with
one wide pixel at zero. -/
def Passes (j : Int) (u v : K) : Prop :=
  if 1 ≤ j then u < j - 1 / 2 ∧ (j : K) - 1 / 2 ≤ v else u ≤ j - 3 / 2 ∧ (j : K) - 3 / 2 < v

theorem passes_iff {j : Int} {u v : K} : Passes j u v ↔ float2int u < j ∧ j ≤ float2int v := by
  unfold Passes float2int
  split_ifs with hj
  · have hl : ∀ w : K, j ≤ truncate (w + 1 / 2) ↔ (j : K) - 1 / 2 ≤ w := by
      intro w
      rw [le_truncate hj, sub_le_iff_le_add]
    have hr := not_congr (hl u)
    rw [not_le, not_le] at hr
    rw [hl, hr]
  · have hl : ∀ w : K, truncate (w + 1 / 2) < j ↔ w ≤ j - 3 / 2 := by
      intro w
      rw [← Int.le_sub_one_iff, truncate_le (by omega)]
      push_cast
      constructor <;> intro h <;> linarith
    have hr := not_congr (hl v)
    rw [not_lt, not_le] at hr
    rw [hl, hr]

theorem clampTo_eq_iff {lo hi : Int} (h : lo ≤ hi) (m n : Int) :
    clampTo lo hi m = clampTo lo hi n ↔
      ∀ j, lo < j → j ≤ hi → ¬ (m < j ∧ j ≤ n) ∧ ¬ (n < j ∧ j ≤ m) := by
  constructor
  · intro he j hlo hhi
    unfold clampTo at he
    split_ifs at he <;> omega
  · intro hj
    obtain hmn | hmn | hmn := lt_trichotomy m n
    · have h1 := hj (m + 1)
      have h2 := hj (lo + 1)
      unfold clampTo
      split_ifs <;> omega
    · rw [hmn]
    · have h1 := hj (n + 1)
      have h2 := hj (lo + 1)
      unfold clampTo
      split_ifs <;> omega

theorem int16_eq {n : Int} (hlo : -32768 ≤ n) (hhi : n < 32768) : int16 n = n := by
  unfold int16
  omega

theorem float2int_range {u : K} (h : |u| ≤ 30000) :
    -30001 ≤ float2int u ∧ float2int u ≤ 30001 := by
  obtain ⟨hlo, hhi⟩ := abs_le.mp h
  constructor
  · by_contra hlt
    have := (truncate_le (n := -30002) (by omega)).mp (show float2int u ≤ -30002 by omega)
    push_cast at this
    linarith
  · by_contra hlt
    have := (le_truncate (n := 30002) (by omega)).mp (show 30002 ≤ float2int u by omega)
    push_cast at this
    linarith

/-- No edge of a pixel between `lo` and `hi` lies between the two offsets. -/
def SamePixel (lo hi : Int) (u v : K) : Prop :=
  ∀ j, lo < j → j ≤ hi → ¬ Passes j u v ∧ ¬ Passes j v u

variable (b : Board) {u v : K}

theorem placeX_eq_iff (hu : |u| ≤ 30000) (hv : |v| ≤ 30000) :
    placeX (layoutOf b) u = placeX (layoutOf b) v ↔
      SamePixel (-(width (layoutOf b) / 2))
        (width (layoutOf b) - width (layoutOf b) / 2) u v := by
  have hu' := float2int_range hu
  have hv' := float2int_range hv
  have hw : 0 ≤ width (layoutOf b) ∧ width (layoutOf b) ≤ 455 := by cases b <;> decide
  have ho : (layoutOf b).cellOffsetX = 5 := by cases b <;> rfl
  unfold placeX pCenterX
  rw [int16_eq (by omega) (by omega), int16_eq (by omega) (by omega), clampTo_eq_iff (by omega)]
  simp only [SamePixel, passes_iff]
  constructor
  · intro h j hlo hhi
    have := h (j + (5 + width (layoutOf b) / 2)) (by omega) (by omega)
    omega
  · intro h j hlo hhi
    have := h (j - (5 + width (layoutOf b) / 2)) (by omega) (by omega)
    omega

theorem placeY_eq_iff (hu : |u| ≤ 30000) (hv : |v| ≤ 30000) :
    placeY (layoutOf b) u = placeY (layoutOf b) v ↔
      SamePixel (height (layoutOf b) / 2 - height (layoutOf b)) (height (layoutOf b) / 2) u v := by
  have hu' := float2int_range hu
  have hv' := float2int_range hv
  have hw : 0 ≤ height (layoutOf b) ∧ height (layoutOf b) ≤ 304 := by cases b <;> decide
  unfold placeY pCenterY
  rw [int16_eq (by omega) (by omega), int16_eq (by omega) (by omega), clampTo_eq_iff (by omega)]
  simp only [SamePixel, passes_iff]
  constructor
  · intro h j hlo hhi
    have := h (height (layoutOf b) / 2 - j + 1) (by omega) (by omega)
    omega
  · intro h j hlo hhi
    have := h (height (layoutOf b) / 2 - j + 1) (by omega) (by omega)
    omega

end Places

section Trace

variable {l : Layout}

theorem markSetIndex_fst (coord : Nat → Nat × Nat) (w : LineState) (i j : Nat) :
    ((markSetIndex l coord w i).trace.x j, (markSetIndex l coord w i).trace.y j) =
      if j = i then coord i else (w.trace.x j, w.trace.y j) := by
  by_cases hj : j = i
  · subst hj
    simp [markSetIndex]
  · simp [markSetIndex, hj]

theorem tables_foldl (coord : Nat → Nat × Nat) (w : LineState) (n i : Nat) (hi : i < n) :
    let w' := (List.range n).foldl (markSetIndex l coord) w
    (w'.trace.x i, w'.trace.y i) = coord i := by
  induction n with
  | zero => omega
  | succ n ih =>
    simp only [List.range_succ, List.foldl_append, List.foldl_cons, List.foldl_nil] at ih ⊢
    rw [markSetIndex_fst]
    split_ifs with h
    · rw [h]
    · exact ih (by omega)

variable {K : Type} [Field K] [LinearOrder K] [FloorRing K]

theorem screenPosition_roundTrace (e : Measured) (s : Plot l) (t : Fin 4) (type : Nat) (scale : K)
    (measured : Nat → Sample K) {i : Nat} (hi : i < s.sweepPoints) :
    screenPosition (roundTrace e s t type scale measured) t i =
      roundPosition l type scale (measured i) := by
  have h := tables_foldl (l := l) (fun i => roundPosition l type scale (measured i))
    ⟨0, 0, 0, s.view.trace t, s.marked⟩ s.sweepPoints i hi
  simpa [screenPosition, roundTrace, traceIntoIndex] using h

end Trace

section Law

variable {K : Type} [Field K] [LinearOrder K] [IsStrictOrderedRing K]

theorem mag2_nonneg (v : Sample K) : 0 ≤ mag2 v :=
  add_nonneg (mul_self_nonneg _) (mul_self_nonneg _)

theorem drawn_smith (v : Sample K) : drawn trcSmith v = smithSample v := by
  have := mag2_nonneg v
  exact if_pos ⟨rfl, by linarith⟩

theorem smithSample_eq {v : Sample K} (h : mag2 v = 0 ∨ mag2 v = 1) : smithSample v = v := by
  obtain h | h := h
  · have hre := mul_self_nonneg v.re
    have him := mul_self_nonneg v.im
    unfold mag2 at h
    have h1 : v.re = 0 := mul_self_eq_zero.mp (by linarith)
    have h2 : v.im = 0 := mul_self_eq_zero.mp (by linarith)
    cases v
    simp_all [smithSample]
  · cases v
    simp [smithSample, h, one_add_one_eq_two]

theorem two_mul_div_le (v : Sample K) {w : K} (hw : w * w ≤ mag2 v) :
    |2 * w / (1 + mag2 v)| ≤ 1 := by
  have hpos : 0 < 1 + mag2 v := by linarith [mag2_nonneg v]
  rw [abs_div, abs_of_pos hpos, div_le_one hpos, abs_mul, abs_two]
  have := mul_self_nonneg (|w| - 1)
  have := abs_mul_abs_self w
  linarith

theorem exists_scale {w r q : K} (hw : w ≠ 0) (hr : 0 < r) (hq : 1 < q) :
    ∃ scale, 0 < scale ∧ |w * (r / scale)| ≤ 30000 ∧ |q * w * (r / scale)| ≤ 30000 ∧
      (Passes 1 (w * (r / scale)) (q * w * (r / scale)) ∨
        Passes 0 (q * w * (r / scale)) (w * (r / scale))) := by
  have hq0 : 0 < q := by linarith
  obtain hneg | hpos := lt_or_gt_of_ne hw
  · have hw' : 0 < -w := by linarith
    have hscale : 0 < 2 * q * -w * r / 3 := by positivity
    have hu : w * (r / (2 * q * -w * r / 3)) = -(3 / (2 * q)) := by field_simp
    have hv : q * w * (r / (2 * q * -w * r / 3)) = -(3 / 2) := by field_simp
    have hlt : 3 / (2 * q) < 3 / 2 := by
      rw [div_lt_div_iff₀ (by linarith) (by norm_num)]
      linarith
    have h0 : 0 < 3 / (2 * q) := by positivity
    refine ⟨2 * q * -w * r / 3, hscale, ?_, ?_, Or.inr ?_⟩
    · rw [hu, abs_neg, abs_of_pos h0]
      linarith
    · rw [hv, abs_neg, abs_of_pos (by norm_num)]
      norm_num
    · rw [hu, hv, Passes, if_neg (by norm_num)]
      constructor
      · norm_num
      · push_cast
        linarith
  · have hscale : 0 < 2 * q * w * r := by positivity
    have hu : w * (r / (2 * q * w * r)) = 1 / (2 * q) := by field_simp
    have hv : q * w * (r / (2 * q * w * r)) = 1 / 2 := by field_simp
    have hlt : 1 / (2 * q) < 1 / 2 := by
      rw [div_lt_div_iff₀ (by linarith) (by norm_num)]
      linarith
    have h0 : 0 < 1 / (2 * q) := by positivity
    refine ⟨2 * q * w * r, hscale, ?_, ?_, Or.inl ?_⟩
    · rw [hu, abs_of_pos h0]
      linarith
    · rw [hv, abs_of_pos (by norm_num)]
      norm_num
    · rw [hu, hv, Passes, if_pos le_rfl]
      constructor
      · push_cast
        linarith
      · norm_num

variable [FloorRing K]

omit [IsStrictOrderedRing K] in
theorem roundPosition_polar (l : Layout) (scale : K) (v : Sample K) :
    roundPosition l trcPolar scale v =
      ((placeX l (v.re * (pRadius l / scale))).toNat,
        (placeY l (v.im * (pRadius l / scale))).toNat) := rfl

theorem roundPosition_smith (l : Layout) (scale : K) (v : Sample K) :
    roundPosition l trcSmith scale v = roundPosition l trcPolar scale (smithSample v) := by
  have hpos : 1 / 1000 < 1 + mag2 v := by linarith [mag2_nonneg v]
  simp only [roundPosition, if_true, smithPosition, if_pos hpos]
  rfl

theorem clampTo_nonneg {lo hi : Int} (hlo : 0 ≤ lo) (hhi : 0 ≤ hi) (n : Int) :
    0 ≤ clampTo lo hi n := by
  unfold clampTo
  split_ifs <;> omega

variable (b : Board)

omit [IsStrictOrderedRing K] in
theorem roundPosition_polar_inj (scale : K) (v w : Sample K) :
    roundPosition (layoutOf b) trcPolar scale v = roundPosition (layoutOf b) trcPolar scale w ↔
      placeX (layoutOf b) (v.re * (pRadius (layoutOf b) / scale)) =
          placeX (layoutOf b) (w.re * (pRadius (layoutOf b) / scale)) ∧
        placeY (layoutOf b) (v.im * (pRadius (layoutOf b) / scale)) =
          placeY (layoutOf b) (w.im * (pRadius (layoutOf b) / scale)) := by
  have hx : ∀ u : K, 0 ≤ placeX (layoutOf b) u := fun u =>
    clampTo_nonneg (by cases b <;> decide) (by cases b <;> decide) _
  have hy : ∀ u : K, 0 ≤ placeY (layoutOf b) u := fun u =>
    clampTo_nonneg le_rfl (by cases b <;> decide) _
  have hinj : ∀ {m n : Int}, 0 ≤ m → 0 ≤ n → (m.toNat = n.toNat ↔ m = n) := by omega
  rw [roundPosition_polar, roundPosition_polar, Prod.mk.injEq, hinj (hx _) (hx _),
    hinj (hy _) (hy _)]

def SameCells (scale : K) (v : Sample K) : Prop :=
  SamePixel (-(width (layoutOf b) / 2)) (width (layoutOf b) - width (layoutOf b) / 2)
      (2 * v.re / (1 + mag2 v) * (pRadius (layoutOf b) / scale))
      (v.re * (pRadius (layoutOf b) / scale)) ∧
    SamePixel (height (layoutOf b) / 2 - height (layoutOf b)) (height (layoutOf b) / 2)
      (2 * v.im / (1 + mag2 v) * (pRadius (layoutOf b) / scale))
      (v.im * (pRadius (layoutOf b) / scale))

theorem same_iff {scale : K} {v : Sample K} (hv : mag2 v ≤ 1) (hscale : 0 < scale)
    (hfits : (pRadius (layoutOf b) : K) ≤ 30000 * scale) :
    roundPosition (layoutOf b) trcSmith scale v = roundPosition (layoutOf b) trcPolar scale v ↔
      SameCells b scale v := by
  have hr : (0 : K) ≤ pRadius (layoutOf b) := by
    exact_mod_cast (show 0 ≤ pRadius (layoutOf b) by cases b <;> decide)
  have hle : ∀ {w : K}, |w| ≤ 1 → |w * (pRadius (layoutOf b) / scale)| ≤ 30000 := by
    intro w hw
    rw [abs_mul, abs_of_nonneg (div_nonneg hr hscale.le)]
    calc |w| * (pRadius (layoutOf b) / scale) ≤ 1 * (pRadius (layoutOf b) / scale) := by
          gcongr
      _ ≤ 30000 := by rwa [one_mul, div_le_iff₀ hscale]
  have hre : v.re * v.re ≤ mag2 v := le_add_of_nonneg_right (mul_self_nonneg _)
  have him : v.im * v.im ≤ mag2 v := le_add_of_nonneg_left (mul_self_nonneg _)
  have habs : ∀ {w : K}, w * w ≤ mag2 v → |w| ≤ 1 := by
    intro w hw
    exact abs_le_one_iff_mul_self_le_one.mpr (hw.trans hv)
  rw [roundPosition_smith, roundPosition_polar_inj]
  simp only [smithSample]
  rw [placeX_eq_iff b (hle (two_mul_div_le v hre)) (hle (habs hre)),
    placeY_eq_iff b (hle (two_mul_div_le v him)) (hle (habs him))]
  rfl

theorem eq_zero_or_one_of_same {v : Sample K} (hv : mag2 v ≤ 1)
    (h : ∀ scale : K, 0 < scale →
      roundPosition (layoutOf b) trcSmith scale v = roundPosition (layoutOf b) trcPolar scale v) :
    mag2 v = 0 ∨ mag2 v = 1 := by
  by_contra hne
  obtain ⟨h0, h1⟩ := not_or.mp hne
  have hlt : mag2 v < 1 := lt_of_le_of_ne hv h1
  have hnn := mag2_nonneg v
  have hq : 1 < 2 / (1 + mag2 v) := by
    rw [lt_div_iff₀ (by linarith)]
    linarith
  have hr : (0 : K) < pRadius (layoutOf b) := by
    exact_mod_cast (show 0 < pRadius (layoutOf b) by cases b <;> decide)
  have hmul : ∀ w : K, 2 * w / (1 + mag2 v) = 2 / (1 + mag2 v) * w := fun w => by ring
  by_cases hre : v.re = 0
  · have him : v.im ≠ 0 := by
      intro him
      exact h0 (by simp [mag2, hre, him])
    obtain ⟨scale, hscale, hu, hw, hpass⟩ := exists_scale him hr hq
    have hsame := h scale hscale
    rw [roundPosition_smith, roundPosition_polar_inj] at hsame
    simp only [smithSample, hmul] at hsame
    have hedges := (placeY_eq_iff b hw hu).mp hsame.2
    obtain hpass | hpass := hpass
    · exact (hedges 1 (by cases b <;> decide) (by cases b <;> decide)).2 hpass
    · exact (hedges 0 (by cases b <;> decide) (by cases b <;> decide)).1 hpass
  · obtain ⟨scale, hscale, hu, hw, hpass⟩ := exists_scale hre hr hq
    have hsame := h scale hscale
    rw [roundPosition_smith, roundPosition_polar_inj] at hsame
    simp only [smithSample, hmul] at hsame
    have hedges := (placeX_eq_iff b hw hu).mp hsame.1
    obtain hpass | hpass := hpass
    · exact (hedges 1 (by cases b <;> decide) (by cases b <;> decide)).2 hpass
    · exact (hedges 0 (by cases b <;> decide) (by cases b <;> decide)).1 hpass

/-- The law of the chart: a Smith trace lies where a polar trace of the same data lies, and the
offsets it rounds are on the arcs of their resistance and reactance. -/
structure FollowsChart (e : Measured) (s : Plot (layoutOf b)) (t : Fin 4)
    (measured : Nat → Sample K) (scale : K) : Prop where
  position : ∀ i < s.sweepPoints,
    screenPosition (roundTrace e s t trcSmith scale measured) t i =
      screenPosition (roundTrace e s t trcPolar scale measured) t i
  arcs : ∀ i < s.sweepPoints, ∀ a : Arc, a.On (measured i) →
    a.curve (pRadius (layoutOf b) : K) (pRadius (layoutOf b) * (drawn trcSmith (measured i)).re)
      |pRadius (layoutOf b) * (drawn trcSmith (measured i)).im| = 0

theorem polar_arcs {v : Sample K} {a : Arc} (h : a.On v) :
    a.curve (pRadius (layoutOf b) : K) (pRadius (layoutOf b) * v.re)
      |pRadius (layoutOf b) * v.im| = 0 := by
  have hr : (0 : K) ≤ pRadius (layoutOf b) := by
    exact_mod_cast (show 0 ≤ pRadius (layoutOf b) by cases b <;> decide)
  rw [abs_mul, abs_of_nonneg hr, Arc.curve_mul, Arc.curve_of_on h, mul_zero]

omit [FloorRing K] in
theorem Arc.cast_curve (a : Arc) (r x y : Int) :
    ((a.curve r x |y| : Int) : K) = a.curve (r : K) x |(y : K)| := by
  cases a <;> simp [Arc.curve]

theorem smithGridPixel_of_on {v : Sample K} (hv : mag2 v ≤ 1) {a : Arc} (h : a.On v) {x y : Int}
    (hx : (x : K) = pRadius (layoutOf b) * v.re) (hy : (y : K) = pRadius (layoutOf b) * v.im) :
    smithGridPixel (pRadius (layoutOf b)) x y := by
  have hin : (x : K) * x + y * y ≤ pRadius (layoutOf b) * pRadius (layoutOf b) := by
    calc (x : K) * x + y * y = pRadius (layoutOf b) * pRadius (layoutOf b) * mag2 v := by
          rw [hx, hy, mag2]
          ring
      _ ≤ _ := mul_le_of_le_one_right (mul_self_nonneg _) hv
  refine smithGridPixel_of_curve (by cases b <;> decide) (by cases b <;> decide)
    (by exact_mod_cast hin) (a := a) ?_
  have hcurve := polar_arcs b h
  rw [← hx, ← hy, ← Arc.cast_curve] at hcurve
  exact_mod_cast hcurve

variable {b}

theorem followsChart_of_rim {e : Measured} {s : Plot (layoutOf b)} {t : Fin 4}
    {measured : Nat → Sample K}
    (h : ∀ i < s.sweepPoints, mag2 (measured i) = 0 ∨ mag2 (measured i) = 1) (scale : K) :
    FollowsChart b e s t measured scale where
  position i hi := by
    rw [screenPosition_roundTrace e s t _ _ _ hi, screenPosition_roundTrace e s t _ _ _ hi,
      roundPosition_smith, smithSample_eq (h i hi)]
  arcs i hi a ha := by
    rw [drawn_smith, smithSample_eq (h i hi)]
    exact polar_arcs b ha

theorem followsChart_iff (e : Measured) (s : Plot (layoutOf b)) (t : Fin 4)
    (measured : Nat → Sample K) (hdisc : ∀ i < s.sweepPoints, mag2 (measured i) ≤ 1) :
    ((∀ scale, 0 < scale → FollowsChart b e s t measured scale) ↔
      ∀ i < s.sweepPoints, mag2 (measured i) = 0 ∨ mag2 (measured i) = 1) ∧
    ∀ scale : K, 0 < scale → (pRadius (layoutOf b) : K) ≤ 30000 * scale →
      ((∀ i < s.sweepPoints,
        screenPosition (roundTrace e s t trcSmith scale measured) t i =
          screenPosition (roundTrace e s t trcPolar scale measured) t i) ↔
        ∀ i < s.sweepPoints, SameCells b scale (measured i)) := by
  refine ⟨⟨fun h i hi => ?_, fun h scale _ => followsChart_of_rim h scale⟩,
    fun scale hscale hfits => forall₂_congr fun i hi => ?_⟩
  · refine eq_zero_or_one_of_same b (hdisc i hi) fun scale hscale => ?_
    have := (h scale hscale).position i hi
    rwa [screenPosition_roundTrace e s t _ _ _ hi, screenPosition_roundTrace e s t _ _ _ hi]
      at this
  · rw [screenPosition_roundTrace e s t _ _ _ hi, screenPosition_roundTrace e s t _ _ _ hi]
    exact same_iff b (hdisc i hi) hscale hfits

def onePoint : Plot (layoutOf .f072) where
  area := Area.normal _
  pending _ := false
  marked := clearMarkmap
  lastPlottedSweepPoints := 1
  lastPlottedTraceMask := 1
  view := ⟨fun t => ⟨t == 0, trcSmith, fun _ => 0, fun _ => 0⟩, fun _ => ⟨false, 0, 0⟩⟩
  grid := ⟨50000, 0, 0, 0⟩
  sweepPoints := 1
  currentTrace := some 0
  activeMarker := none
  markerTrack := false
  searchMinimum := false
  showGrid := true
  electricalDelay := false
  s21Offset := false
  portz := false
  measure := .none
  dataUpdate := ⟨true, false⟩
  screen _ := none
  acted := []
  raised := []

def nothingFound : Measured where
  coord _ _ := (0, 0)
  lcShunt := ⟨none, none, false, none⟩
  lcSeries := ⟨none, none, false, none⟩
  xtalNotch := none
  filter := ⟨0, false, none, none⟩

def half : Sample ℚ := ⟨1 / 2, 0⟩

theorem half_positions :
    roundPosition (layoutOf .f072) trcSmith 1 half = (248, 116) ∧
      roundPosition (layoutOf .f072) trcPolar 1 half = (213, 116) := by
  decide +kernel

theorem followsChart_iff_open :
    FollowsChart .f072 nothingFound onePoint 0 (fun _ => (⟨1, 0⟩ : Sample ℚ)) 2 := by
  refine (followsChart_iff (b := .f072) nothingFound onePoint 0 (fun _ => (⟨1, 0⟩ : Sample ℚ))
    fun _ _ => ?_).1.mpr (fun _ _ => Or.inr ?_) 2 (by norm_num)
  · simp [mag2]
  · simp [mag2]

/-- Half of the rim is drawn at four fifths of it. -/
theorem smith_trace_off_chart :
    mag2 half ≤ 1 ∧ ¬ FollowsChart .f072 nothingFound onePoint 0 (fun _ => half) 1 := by
  refine ⟨by norm_num [mag2, half], fun h => ?_⟩
  have := h.position 0 (by decide)
  rw [screenPosition_roundTrace _ _ _ _ _ _ (by decide),
    screenPosition_roundTrace _ _ _ _ _ _ (by decide), half_positions.1, half_positions.2] at this
  exact absurd this (by decide)

end Law

end NanoVNA.ChartPositions
