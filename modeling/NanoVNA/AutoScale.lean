import Mathlib.Algebra.Order.Archimedean.Real.Basic
import Mathlib.Data.Set.Finite.Lemmas
import Mathlib.Order.Bounds.Basic
import Mathlib.Tactic.IntervalCases
import NanoVNA.ChartPositions

namespace NanoVNA.AutoScale

open NanoVNA.DeviceState NanoVNA.PlotLayout NanoVNA.DrawAll NanoVNA.ChartPositions
open NanoVNA.Truncation

/-! ### The scale that is chosen -/

inductive Value (K : Type)
  | finite (v : K)
  | posInf
  | negInf

structure Scaling (K : Type) where
  scale : K
  refpos : K

def ngridy : ℕ := 8

section Code

variable {K : Type} [Field K] [LinearOrder K]

/-- The first value counts as 0 if it is infinite. -/
def firstValue : Value K → K
  | .finite v => v
  | _ => 0

/-- `min_val` and `max_val` after a number of steps of the loop. -/
def rangeScan (v : ℕ → Value K) : ℕ → K × K
  | 0 => (firstValue (v 0), firstValue (v 0))
  | i + 1 =>
    let r := rangeScan v i
    match v (i + 1) with
    | .finite x => (if x < r.1 then x else r.1, if r.2 < x then x else r.2)
    | _ => r

/-- A flat signal gets a span. -/
def widen (lo hi : K) : K × K :=
  if lo = hi then
    if lo = 0 then (-1, 1)
    else
      let span := |lo| / 10
      (lo - span, hi + span)
  else (lo, hi)

/-- `menu_auto_scale_cb` for a trace whose type has a callback. -/
def menuAutoScaleCb (sweepPoints : ℕ) (v : ℕ → Value K) (old : Scaling K) : Scaling K :=
  if sweepPoints = 0 then old
  else
    let r := rangeScan v (sweepPoints - 1)
    let r := widen r.1 r.2
    let scale := (r.2 - r.1) / ngridy
    ⟨scale, ngridy - r.2 / scale⟩

variable [FloorRing K] (l : Layout)

def gridy : Int := height l / ngridy

def trcSwr : ℕ := 6

/-- The row before it is limited to the plot. -/
def rectRow (type : ℕ) (r : Scaling K) (v : K) : Int :=
  let refpos := (height l : K) - r.refpos * gridy l + 1 / 2
  let dscale := (gridy l : K) / r.scale
  let refpos := if type = trcSwr then refpos + dscale else refpos
  truncate (refpos - v * dscale)

/-- The conversion of minus infinity is taken to saturate. -/
def rectY (type : ℕ) (r : Scaling K) : Value K → Int
  | .finite v => clampTo 0 (height l) (rectRow l type r v)
  | .posInf => 0
  | .negInf => height l

def rectPosition (type sweepPoints : ℕ) (r : Scaling K) (v : ℕ → Value K) (i : ℕ) : Nat × Nat :=
  let dx := (width l).toNat * 2 ^ 16 / (sweepPoints - 1)
  let x := l.cellOffsetX * 2 ^ 16 + 2 ^ 15 + dx * i
  (x / 2 ^ 16 % 2 ^ 16, (rectY l type r (v i)).toNat)

variable {l}

/-- `trace_into_index` for a trace on the rectangular grid. -/
def rectTrace (e : Measured) (s : Plot l) (t : Fin 4) (type : ℕ) (r : Scaling K)
    (v : ℕ → Value K) : Plot l :=
  traceIntoIndex
    { e with coord := Function.update e.coord t (rectPosition l type s.sweepPoints r v) } s t

theorem screenPosition_rectTrace (e : Measured) (s : Plot l) (t : Fin 4) (type : ℕ)
    (r : Scaling K) (v : ℕ → Value K) {i : ℕ} (hi : i < s.sweepPoints) :
    screenPosition (rectTrace e s t type r v) t i =
      rectPosition l type s.sweepPoints r v i := by
  have h := tables_foldl (l := l) (rectPosition l type s.sweepPoints r v)
    ⟨0, 0, 0, s.view.trace t, s.marked⟩ s.sweepPoints i hi
  simpa [screenPosition, rectTrace, traceIntoIndex] using h

end Code

/-! ### The range of the samples -/

section Range

variable {v : ℕ → Value ℝ} {n : ℕ} {m M lo hi : ℝ}

def finiteValues (v : ℕ → Value ℝ) (n : ℕ) : Set ℝ := {x | ∃ i < n, v i = .finite x}

def countedValues (v : ℕ → Value ℝ) (n : ℕ) : Set ℝ := insert (firstValue (v 0)) (finiteValues v n)

theorem countedValues_succ (v : ℕ → Value ℝ) (n : ℕ) :
    countedValues v (n + 1) =
      match v n with
      | .finite x => insert x (countedValues v n)
      | _ => countedValues v n := by
  have hsucc (x : ℝ) : x ∈ finiteValues v (n + 1) ↔ v n = .finite x ∨ x ∈ finiteValues v n := by
    constructor
    · rintro ⟨i, hi, hx⟩
      obtain hlt | rfl := Nat.lt_succ_iff_lt_or_eq.mp hi
      · exact Or.inr ⟨i, hlt, hx⟩
      · exact Or.inl hx
    · rintro (hx | ⟨i, hi, hx⟩)
      · exact ⟨n, Nat.lt_succ_self n, hx⟩
      · exact ⟨i, Nat.lt_succ_of_lt hi, hx⟩
  ext x
  simp only [countedValues, Set.mem_insert_iff, hsucc]
  cases v n with
  | finite y =>
    simp only [Value.finite.injEq, Set.mem_insert_iff, eq_comm (a := y)]
    tauto
  | posInf => simp
  | negInf => simp

theorem rangeScan_bounds (v : ℕ → Value ℝ) (n : ℕ) :
    IsLeast (countedValues v (n + 1)) (rangeScan v n).1 ∧
      IsGreatest (countedValues v (n + 1)) (rangeScan v n).2 := by
  induction n with
  | zero =>
    have hone : countedValues v 1 = {firstValue (v 0)} := by
      rw [countedValues_succ]
      have hzero : countedValues v 0 = {firstValue (v 0)} := by
        ext x
        simp [countedValues, finiteValues]
      rw [hzero]
      cases v 0 with
      | finite x => exact Set.pair_eq_singleton x
      | posInf => rfl
      | negInf => rfl
    rw [hone]
    exact ⟨isLeast_singleton, isGreatest_singleton⟩
  | succ n ih =>
    rw [countedValues_succ, rangeScan]
    cases v (n + 1) with
    | finite x =>
      have hmin := ih.1.insert x
      have hmax := ih.2.insert x
      rw [min_def_lt] at hmin
      rw [max_comm, max_def_lt] at hmax
      exact ⟨hmin, hmax⟩
    | posInf => exact ih
    | negInf => exact ih

/-- An infinite first value pulls the range to 0. -/
def pulled (v : ℕ → Value ℝ) (op : ℝ → ℝ → ℝ) (x : ℝ) : ℝ :=
  match v 0 with
  | .finite _ => x
  | _ => op x 0

theorem rangeScan_eq (hm : IsLeast (finiteValues v (n + 1)) m)
    (hM : IsGreatest (finiteValues v (n + 1)) M) :
    rangeScan v n = (pulled v min m, pulled v max M) := by
  obtain ⟨hleast, hgreatest⟩ := rangeScan_bounds v n
  have hlo := hleast.unique (hm.insert (firstValue (v 0)))
  have hhi := hgreatest.unique (hM.insert (firstValue (v 0)))
  rw [Prod.ext_iff, hlo, hhi, pulled, pulled]
  have hfirst (x : ℝ) (hx : v 0 = .finite x) : x ∈ finiteValues v (n + 1) :=
    ⟨0, Nat.succ_pos n, hx⟩
  cases hv : v 0 with
  | finite x => exact ⟨min_eq_right (hm.2 (hfirst x hv)), max_eq_right (hM.2 (hfirst x hv))⟩
  | posInf => exact ⟨min_comm 0 m, max_comm 0 M⟩
  | negInf => exact ⟨min_comm 0 m, max_comm 0 M⟩

end Range

/-! ### The rows after scaling -/

section Rows

variable {b : Board} {type : ℕ} {lo hi x : ℝ}

/-- The trace of the standing wave ratio starts from 1. -/
def offset (type : ℕ) : ℝ := if type = trcSwr then 1 else 0

theorem rectRow_eq (h : lo < hi) :
    rectRow (layoutOf b) type ⟨(hi - lo) / ngridy, ngridy - hi / ((hi - lo) / ngridy)⟩ x =
      truncate ((height (layoutOf b) : ℝ) * (hi - x + offset type) / (hi - lo) + 1 / 2) := by
  have hne : hi - lo ≠ 0 := by linarith
  have hheight : (height (layoutOf b) : ℝ) = 8 * gridy (layoutOf b) := by
    have hgrid : height (layoutOf b) = 8 * gridy (layoutOf b) := by cases b <;> decide
    exact_mod_cast hgrid
  unfold rectRow
  dsimp only
  congr 1
  rw [hheight, offset, ngridy]
  split
  next =>
    push_cast
    field_simp
    ring
  next =>
    push_cast
    field_simp
    ring

theorem height_pos (b : Board) : (0 : ℝ) < height (layoutOf b) := by
  exact_mod_cast (show 0 < height (layoutOf b) by cases b <;> decide)

theorem offset_nonneg (type : ℕ) : 0 ≤ offset type := by
  unfold offset
  split <;> norm_num

theorem le_rectRow (b : Board) (type : ℕ) (x : ℝ) (h : lo < hi) {n : ℤ} (hn : 1 ≤ n) :
    n ≤ rectRow (layoutOf b) type ⟨(hi - lo) / ngridy, ngridy - hi / ((hi - lo) / ngridy)⟩ x ↔
      (2 * n - 1) * (hi - lo) ≤ 2 * height (layoutOf b) * (hi - x + offset type) := by
  have hpos : 0 < hi - lo := by linarith
  rw [rectRow_eq h, le_truncate hn, ← sub_le_iff_le_add, le_div_iff₀ hpos]
  constructor
  · intro hle
    linarith
  · intro hle
    linarith

theorem rectRow_nonneg (h : lo < hi) (hx : x ≤ hi) :
    0 ≤ rectRow (layoutOf b) type ⟨(hi - lo) / ngridy, ngridy - hi / ((hi - lo) / ngridy)⟩ x := by
  have hquotient : 0 ≤ (height (layoutOf b) : ℝ) * (hi - x + offset type) / (hi - lo) + 1 / 2 := by
    have hoffset := offset_nonneg type
    have hrow : 0 ≤ hi - x + offset type := by linarith
    have hdiv := div_nonneg (mul_nonneg (height_pos b).le hrow) (sub_nonneg.mpr h.le)
    linarith
  rw [rectRow_eq h, truncate, if_pos hquotient]
  exact Int.floor_nonneg.mpr hquotient

/-- The largest and the smallest sample are drawn on the first and on the last row. -/
def RowsFit (b : Board) (type : ℕ) (lo hi m M : ℝ) : Prop :=
  let h := (height (layoutOf b) : ℝ)
  2 * h * (hi - m + offset type) < (2 * h + 1) * (hi - lo) ∧
    (m ≠ M → 2 * h * (hi - M + offset type) < hi - lo ∧
      (2 * h - 1) * (hi - lo) ≤ 2 * h * (hi - m + offset type))

theorem rowsFit_iff {S : Set ℝ} {m M : ℝ} (h : lo < hi) (hm : IsLeast S m) (hM : IsGreatest S M)
    (hhi : M ≤ hi) :
    let row := rectRow (layoutOf b) type ⟨(hi - lo) / ngridy, ngridy - hi / ((hi - lo) / ngridy)⟩
    ((∀ x ∈ S, 0 ≤ row x ∧ row x ≤ height (layoutOf b)) ∧
      (m ≠ M → row M = 0 ∧ row m = height (layoutOf b))) ↔ RowsFit b type lo hi m M := by
  intro row
  have hheight : 1 ≤ height (layoutOf b) := by cases b <;> decide
  have hbelow (x : ℝ) : row x ≤ height (layoutOf b) ↔
      2 * height (layoutOf b) * (hi - x + offset type) <
        (2 * height (layoutOf b) + 1) * (hi - lo) := by
    have hle := le_rectRow b type x h (n := height (layoutOf b) + 1) (by omega)
    rw [← Int.lt_add_one_iff, ← not_le, hle, not_le]
    push_cast
    constructor
    · intro hlt
      linarith
    · intro hlt
      linarith
  have htop : row M = 0 ↔ 2 * height (layoutOf b) * (hi - M + offset type) < hi - lo := by
    have hle := le_rectRow b type M h (n := 1) (le_refl 1)
    have hnonneg : 0 ≤ row M := rectRow_nonneg h hhi
    have hzero : row M = 0 ↔ ¬ 1 ≤ row M := by omega
    rw [hzero, hle, not_le]
    norm_num
  have hbottom := le_rectRow b type m h hheight
  have hmono (x : ℝ) (hx : x ∈ S) (hle : row m ≤ height (layoutOf b)) :
      row x ≤ height (layoutOf b) := by
    rw [hbelow] at hle ⊢
    have hscale := mul_le_mul_of_nonneg_left (hm.2 hx) (height_pos b).le
    linarith
  unfold RowsFit
  dsimp only
  rw [← hbelow, ← htop, ← hbottom]
  constructor
  · rintro ⟨hall, hends⟩
    refine ⟨(hall m hm.1).2, fun hne => ?_⟩
    exact ⟨(hends hne).1, (hends hne).2.ge⟩
  · rintro ⟨hle, hends⟩
    refine ⟨fun x hx => ⟨?_, hmono x hx hle⟩, fun hne => ?_⟩
    · exact rectRow_nonneg h ((hM.2 hx).trans hhi)
    · exact ⟨(hends hne).1, le_antisymm hle (hends hne).2⟩

end Rows

/-! ### When the rows fit -/

section Results

variable {b : Board} {v : ℕ → Value ℝ} {n type : ℕ} {m M : ℝ}

/-- With the range pulled to 0 if the first value is infinite; a flat trace of the standing wave
ratio must be far enough from its start at 1. -/
def Fits (b : Board) (type : ℕ) (v : ℕ → Value ℝ) (m M : ℝ) : Prop :=
  let h := (height (layoutOf b) : ℝ)
  if pulled v min m < pulled v max M then RowsFit b type (pulled v min m) (pulled v max M) m M
  else type = trcSwr → m = 0 ∨ 10 * h < (h + 1) * |m|

theorem pulled_min_le (v : ℕ → Value ℝ) (m : ℝ) : pulled v min m ≤ m := by
  unfold pulled
  split
  next => exact le_refl m
  next => exact min_le_left m 0

theorem le_pulled_max (v : ℕ → Value ℝ) (M : ℝ) : M ≤ pulled v max M := by
  unfold pulled
  split
  next => exact le_refl M
  next => exact le_max_left M 0

theorem rowsFit_flat (b : Board) (type : ℕ) (m : ℝ) :
    (widen m m).1 < (widen m m).2 ∧ m ≤ (widen m m).2 ∧
      (RowsFit b type (widen m m).1 (widen m m).2 m m ↔
        (type = trcSwr → m = 0 ∨ 10 * (height (layoutOf b) : ℝ) <
          (height (layoutOf b) + 1) * |m|)) := by
  have hheight := height_pos b
  unfold widen RowsFit offset
  dsimp only
  rw [if_pos rfl]
  by_cases hm : m = 0
  · rw [if_pos hm]
    refine ⟨by norm_num, by rw [hm]; norm_num, iff_of_true ?_ fun _ => Or.inl hm⟩
    refine ⟨?_, fun h => absurd rfl h⟩
    dsimp only
    rw [hm]
    split
    next => linarith
    next => linarith
  · have habs := abs_pos.mpr hm
    rw [if_neg hm]
    dsimp only
    refine ⟨by linarith, by linarith, ?_⟩
    split
    next hswr =>
      simp only [hswr, hm, false_or, true_implies, ne_eq, not_true_eq_false, false_implies,
        and_true]
      constructor
      · intro h
        linarith
      · intro h
        linarith
    next hswr =>
      refine iff_of_true ⟨?_, fun h => absurd rfl h⟩ fun h => absurd h hswr
      have hspan := mul_pos hheight habs
      linarith

theorem fits_iff (hm : m ≤ M) :
    let r := widen (pulled v min m) (pulled v max M)
    r.1 < r.2 ∧ M ≤ r.2 ∧ (RowsFit b type r.1 r.2 m M ↔ Fits b type v m M) := by
  have hlo := pulled_min_le v m
  have hhi := le_pulled_max v M
  unfold Fits
  dsimp only
  by_cases h : pulled v min m < pulled v max M
  · have hwiden : widen (pulled v min m) (pulled v max M) = (pulled v min m, pulled v max M) := by
      rw [widen, if_neg h.ne]
    rw [if_pos h, hwiden]
    exact ⟨h, hhi, Iff.rfl⟩
  · obtain rfl : m = M := by linarith
    have hpulled : pulled v min m = m := by linarith
    have hpulled' : pulled v max m = m := by linarith
    rw [if_neg h, hpulled, hpulled']
    exact rowsFit_flat b type _

theorem exists_bounds (h : (finiteValues v n).Nonempty) :
    ∃ m M, IsLeast (finiteValues v n) m ∧ IsGreatest (finiteValues v n) M := by
  have hfinite : (finiteValues v n).Finite := by
    refine ((Set.finite_lt_nat n).image fun i => firstValue (v i)).subset ?_
    rintro x ⟨i, hi, hx⟩
    exact ⟨i, hi, by simp only [hx, firstValue]⟩
  obtain ⟨m, hm, hmin⟩ := Set.exists_min_image _ id hfinite h
  obtain ⟨M, hM, hmax⟩ := Set.exists_max_image _ id hfinite h
  exact ⟨m, M, ⟨hm, hmin⟩, ⟨hM, hmax⟩⟩

def tableRow (s : Plot (layoutOf b)) (t : Fin 4) (i : ℕ) : ℤ := (screenPosition s t i).2

theorem tableRow_rectTrace (e : Measured) (s : Plot (layoutOf b)) (t : Fin 4) (r : Scaling ℝ)
    {i : ℕ} (hi : i < s.sweepPoints) {x : ℝ} (hx : v i = .finite x) :
    tableRow (rectTrace e s t type r v) t i =
      clampTo 0 (height (layoutOf b)) (rectRow (layoutOf b) type r x) := by
  have hnonneg := clampTo_nonneg (le_refl 0) (show 0 ≤ height (layoutOf b) by cases b <;> decide)
    (rectRow (layoutOf b) type r x)
  rw [tableRow, screenPosition_rectTrace _ _ _ _ _ _ hi, rectPosition, hx, rectY]
  exact Int.toNat_of_nonneg hnonneg

/-- After the automatic scaling every finite sample is drawn in its own row, the largest one on
the first row of the plot and the smallest one on the last. -/
def Meets (e : Measured) (s : Plot (layoutOf b)) (t : Fin 4) (type : ℕ) (old : Scaling ℝ)
    (v : ℕ → Value ℝ) : Prop :=
  let r := menuAutoScaleCb s.sweepPoints v old
  (∀ i < s.sweepPoints, ∀ x, v i = .finite x →
    0 ≤ rectRow (layoutOf b) type r x ∧ rectRow (layoutOf b) type r x ≤ height (layoutOf b)) ∧
  ∀ m M, IsLeast (finiteValues v s.sweepPoints) m → IsGreatest (finiteValues v s.sweepPoints) M →
    m ≠ M → ∀ i < s.sweepPoints,
      (v i = .finite M → tableRow (rectTrace e s t type r v) t i = 0) ∧
      (v i = .finite m → tableRow (rectTrace e s t type r v) t i = height (layoutOf b))

theorem menuAutoScaleCb_eq {points : ℕ} (hm : IsLeast (finiteValues v points) m)
    (hM : IsGreatest (finiteValues v points) M) (old : Scaling ℝ) :
    let r := widen (pulled v min m) (pulled v max M)
    menuAutoScaleCb points v old =
      ⟨(r.2 - r.1) / ngridy, ngridy - r.2 / ((r.2 - r.1) / ngridy)⟩ := by
  obtain ⟨i, hi, -⟩ := hm.1
  obtain ⟨n, rfl⟩ := Nat.exists_eq_add_of_le' (Nat.one_le_of_lt hi)
  unfold menuAutoScaleCb
  rw [if_neg (Nat.succ_ne_zero n), Nat.add_sub_cancel, rangeScan_eq hm hM]

theorem scaled_rows_iff (old : Scaling ℝ) {points : ℕ} (hm : IsLeast (finiteValues v points) m)
    (hM : IsGreatest (finiteValues v points) M) :
    let row := rectRow (layoutOf b) type (menuAutoScaleCb points v old)
    ((∀ x ∈ finiteValues v points, 0 ≤ row x ∧ row x ≤ height (layoutOf b)) ∧
      (m ≠ M → row M = 0 ∧ row m = height (layoutOf b))) ↔ Fits b type v m M := by
  obtain ⟨hlt, hle, hfits⟩ := fits_iff (b := b) (v := v) (hm.2 hM.1)
  dsimp only
  rw [menuAutoScaleCb_eq hm hM old, ← hfits]
  exact rowsFit_iff hlt hm hM hle

theorem clampTo_of_mem {lo hi n : ℤ} (h : lo ≤ n ∧ n ≤ hi) : clampTo lo hi n = n := by
  rw [clampTo, if_neg (not_lt.mpr h.1), if_neg (not_lt.mpr h.2)]

theorem fits_of_meets {e : Measured} {s : Plot (layoutOf b)} {t : Fin 4} {old : Scaling ℝ}
    (h : Meets e s t type old v) (hm : IsLeast (finiteValues v s.sweepPoints) m)
    (hM : IsGreatest (finiteValues v s.sweepPoints) M) : Fits b type v m M := by
  obtain ⟨hall, hends⟩ := h
  refine (scaled_rows_iff old hm hM).mp ⟨fun x ⟨i, hi, hx⟩ => hall i hi x hx, fun hne => ⟨?_, ?_⟩⟩
  · obtain ⟨i, hi, hx⟩ := hM.1
    have hrow := (hends m M hm hM hne i hi).1 hx
    rwa [tableRow_rectTrace e s t _ hi hx, clampTo_of_mem (hall i hi M hx)] at hrow
  · obtain ⟨i, hi, hx⟩ := hm.1
    have hrow := (hends m M hm hM hne i hi).2 hx
    rwa [tableRow_rectTrace e s t _ hi hx, clampTo_of_mem (hall i hi m hx)] at hrow

theorem autoScale_meets_iff (b : Board) (e : Measured) (s : Plot (layoutOf b)) (t : Fin 4)
    (type : ℕ) (old : Scaling ℝ) (v : ℕ → Value ℝ) :
    Meets e s t type old v ↔
      ∀ m M, IsLeast (finiteValues v s.sweepPoints) m →
        IsGreatest (finiteValues v s.sweepPoints) M → Fits b type v m M := by
  constructor
  · intro h m M hm hM
    exact fits_of_meets h hm hM
  · intro h
    refine ⟨fun i hi x hx => ?_, fun m M hm hM hne i hi => ?_⟩
    · obtain ⟨m, M, hm, hM⟩ := exists_bounds ⟨x, i, hi, hx⟩
      exact ((scaled_rows_iff old hm hM).mpr (h m M hm hM)).1 x ⟨i, hi, hx⟩
    · obtain ⟨hall, hends⟩ := (scaled_rows_iff old hm hM).mpr (h m M hm hM)
      refine ⟨fun hx => ?_, fun hx => ?_⟩
      · rw [tableRow_rectTrace e s t _ hi hx, clampTo_of_mem (hall M hM.1)]
        exact (hends hne).1
      · rw [tableRow_rectTrace e s t _ hi hx, clampTo_of_mem (hall m hm.1)]
        exact (hends hne).2

theorem fits_of_finite (htype : type ≠ trcSwr) {x : ℝ} (hx : v 0 = .finite x) :
    Fits b type v m M := by
  have hheight := height_pos b
  unfold Fits RowsFit pulled offset
  dsimp only
  simp only [hx, if_neg htype]
  by_cases hlt : m < M
  · rw [if_pos hlt]
    have hspan : 0 < M - m := sub_pos.mpr hlt
    refine ⟨by linarith, fun _ => ⟨by linarith, by linarith⟩⟩
  · rw [if_neg hlt]
    exact fun h => absurd h htype

def threePoints : Plot (layoutOf .f072) := { onePoint with sweepPoints := 3 }

def ratios (i : ℕ) : Value ℝ := .finite (i + 1)

theorem ratios_bounds :
    IsLeast (finiteValues ratios 3) 1 ∧ IsGreatest (finiteValues ratios 3) 3 := by
  have hvalue {x : ℝ} (hx : x ∈ finiteValues ratios 3) : 1 ≤ x ∧ x ≤ 3 := by
    obtain ⟨i, hi, hx⟩ := hx
    obtain rfl := Value.finite.inj hx
    interval_cases i <;> norm_num
  refine ⟨⟨⟨0, by omega, ?_⟩, fun x hx => (hvalue hx).1⟩, ⟨2, by omega, ?_⟩,
    fun x hx => (hvalue hx).2⟩
  · norm_num [ratios]
  · norm_num [ratios]

noncomputable def impedances (i : ℕ) : Value ℝ := if i = 0 then .posInf else .finite (100 * i)

theorem impedances_bounds :
    IsLeast (finiteValues impedances 3) 100 ∧ IsGreatest (finiteValues impedances 3) 200 := by
  have hvalue {x : ℝ} (hx : x ∈ finiteValues impedances 3) : 100 ≤ x ∧ x ≤ 200 := by
    obtain ⟨i, hi, hx⟩ := hx
    interval_cases i
    · cases hx
    · obtain rfl := Value.finite.inj hx
      norm_num
    · obtain rfl := Value.finite.inj hx
      norm_num
  refine ⟨⟨⟨1, by omega, ?_⟩, fun x hx => (hvalue hx).1⟩, ⟨2, by omega, ?_⟩,
    fun x hx => (hvalue hx).2⟩
  · norm_num [impedances]
  · norm_num [impedances]

/-- Ratios of 1, 2 and 3, and impedances of which the first is infinite. -/
theorem not_autoScale_meets :
    ¬ Meets nothingFound threePoints 0 trcSwr ⟨1, 0⟩ ratios ∧
      ¬ Meets nothingFound threePoints 0 11 ⟨50, 0⟩ impedances := by
  have hheight : height (layoutOf .f072) = 232 := by decide
  constructor
  · intro h
    have hfits := fits_of_meets h ratios_bounds.1 ratios_bounds.2
    norm_num [Fits, RowsFit, pulled, offset, ratios, hheight] at hfits
  · intro h
    have hfits := fits_of_meets h impedances_bounds.1 impedances_bounds.2
    norm_num [Fits, RowsFit, pulled, offset, impedances, hheight, trcSwr] at hfits

end Results

end NanoVNA.AutoScale
