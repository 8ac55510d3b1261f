import Mathlib.Data.Rat.Floor
import Mathlib.Algebra.Order.Round
import Mathlib.Tactic.Ring
import Mathlib.Tactic.FieldSimp
import NanoVNA.SweepGrid

namespace NanoVNA.FrequencyTable

open NanoVNA.Word32 NanoVNA.DeviceState NanoVNA.SweepGrid

structure Line where
  i : Nat
  f : Nat
  df : Nat
  frequencies : Nat → Nat

def lineRound (step delta error : Nat) (l : Line) : Line :=
  let frequencies := Function.update l.frequencies l.i l.f
  let df := u32 (l.df + error)
  if step ≤ df then ⟨l.i + 1, u32 (u32 (l.f + 1) + delta), sub32 df step, frequencies⟩
  else ⟨l.i + 1, u32 (l.f + delta), df, frequencies⟩

def lineLoop (step delta error : Nat) : Nat → Line → Line
  | 0, l => l
  | n + 1, l => lineRound step delta error (lineLoop step delta error n l)

/-- `app_measurement_set_frequencies` of the build with the frequency table -/
def tableSetFrequencies (board : Board) (start stop points : Nat) (frequencies : Nat → Nat) :
    Nat → Nat :=
  let step := sub32 points 1
  let span := sub32 stop start
  let delta := span / step
  let error := span % step
  let l := lineLoop step delta error (step + 1) ⟨0, start, step / 2, frequencies⟩
  fun i => if l.i ≤ i ∧ i < sweepPointsMax board then 0 else l.frequencies i

def gridPoint (g : Grid) (i : Nat) : Nat :=
  g.fStart + g.fDelta * i + (g.fPoints / 2 + g.fError * i) / g.fPoints

/-- No intermediate value of `getFrequency` leaves 32 bits. -/
structure NoOverflow (g : Grid) (i : Nat) : Prop where
  delta : g.fDelta * i < 2 ^ 32
  start : g.fStart + g.fDelta * i < 2 ^ 32
  error : g.fError * i < 2 ^ 32
  round : g.fPoints / 2 + g.fError * i < 2 ^ 32
  sum : gridPoint g i < 2 ^ 32

theorem NoOverflow.getFrequency_eq {g : Grid} {i : Nat} (h : NoOverflow g i) :
    getFrequency g i = gridPoint g i := by
  unfold getFrequency
  rw [u32_of_lt h.round]
  exact u32_of_lt h.sum

/-- What a request leaves in the grid, when it is ordered and has two points or more. -/
structure GridOk (g : Grid) (start stop points : Nat) : Prop where
  fStart : g.fStart = start
  fPoints : g.fPoints = points - 1
  positive : 0 < g.fPoints
  span : g.fDelta * g.fPoints + g.fError = stop - start
  fError : g.fError < g.fPoints

variable {board : Board} {start stop points : Nat} {g : Grid}

theorem grid_ok (hle : start ≤ stop) (hstop : stop ≤ frequencyMax) (hlo : 2 ≤ points)
    (hhi : points ≤ sweepPointsMax board) :
    GridOk (appMeasurementSetFrequencies start stop points) start stop points := by
  have hboard : points ≤ 401 := by cases board <;> simp only [sweepPointsMax] at hhi <;> omega
  have hpoints : (points + 65535) % 65536 = points - 1 := by omega
  have hspan : sub32 stop start = stop - start :=
    sub32_of_le (Nat.lt_of_le_of_lt hstop (by decide)) hle
  have hpos : 0 < points - 1 := by omega
  constructor
  · rfl
  · exact hpoints
  · exact hpos.trans_eq hpoints.symm
  · simp only [appMeasurementSetFrequencies, hpoints, hspan]
    exact Nat.div_add_mod' (stop - start) (points - 1)
  · simp only [appMeasurementSetFrequencies, hpoints, hspan]
    exact Nat.mod_lt _ hpos

theorem gridPoint_zero (h : GridOk g start stop points) : gridPoint g 0 = start := by
  have hhalf : g.fPoints / 2 / g.fPoints = 0 :=
    Nat.div_eq_of_lt (Nat.div_lt_self h.positive (by decide))
  simp only [gridPoint, Nat.mul_zero, Nat.add_zero, hhalf, h.fStart]

theorem gridPoint_last (h : GridOk g start stop points) (hle : start ≤ stop) :
    gridPoint g g.fPoints = stop := by
  have hhalf : g.fPoints / 2 / g.fPoints = 0 :=
    Nat.div_eq_of_lt (Nat.div_lt_self h.positive (by decide))
  have hround : (g.fPoints / 2 + g.fError * g.fPoints) / g.fPoints = g.fError := by
    rw [Nat.add_mul_div_right _ _ h.positive, hhalf, Nat.zero_add]
  have hspan := h.span
  rw [gridPoint, hround, h.fStart]
  omega

theorem gridPoint_mono (g : Grid) : Monotone (gridPoint g) := by
  intro i j hij
  have hdelta := Nat.mul_le_mul_left g.fDelta hij
  have herror := Nat.mul_le_mul_left g.fError hij
  have hround := Nat.div_le_div_right (c := g.fPoints) (Nat.add_le_add_left herror (g.fPoints / 2))
  unfold gridPoint
  omega

theorem gridPoint_le (h : GridOk g start stop points) (hle : start ≤ stop) {i : Nat}
    (hi : i < points) : gridPoint g i ≤ stop := by
  rw [← gridPoint_last h hle]
  exact gridPoint_mono g (by rw [h.fPoints]; omega)

theorem gridPoint_succ (h : GridOk g start stop points) (i : Nat) :
    gridPoint g (i + 1) = gridPoint g i + g.fDelta +
      if g.fPoints ≤ (g.fPoints / 2 + g.fError * i) % g.fPoints + g.fError then 1 else 0 := by
  have hround : (g.fPoints / 2 + g.fError * (i + 1)) / g.fPoints =
      (g.fPoints / 2 + g.fError * i) / g.fPoints +
        if g.fPoints ≤ (g.fPoints / 2 + g.fError * i) % g.fPoints + g.fError then 1 else 0 := by
    rw [Nat.mul_succ, ← Nat.add_assoc, Nat.add_div h.positive, Nat.div_eq_of_lt h.fError,
      Nat.mod_eq_of_lt h.fError, Nat.add_zero]
  rw [gridPoint, gridPoint, hround, Nat.mul_succ]
  omega

theorem noOverflow (h : GridOk g start stop points) (hle : start ≤ stop)
    (hstop : stop ≤ frequencyMax) (hhi : points ≤ sweepPointsMax board) {i : Nat}
    (hi : i < points) : NoOverflow g i := by
  have hboard : points ≤ 401 := by cases board <;> simp only [sweepPointsMax] at hhi <;> omega
  have hmax : frequencyMax < 2 ^ 32 := by decide
  have hsum := gridPoint_le h hle hi
  have hpoints := h.fPoints
  have herror : g.fError * i ≤ 400 * 400 :=
    Nat.mul_le_mul (by have := h.fError; omega) (by omega)
  have hstart : g.fStart + g.fDelta * i ≤ gridPoint g i := Nat.le_add_right _ _
  constructor <;> omega

/-- What the loop has done after `k` rounds. Its last round still adds a step to the frequency,
which may wrap; nothing reads it. -/
structure LineInv (g : Grid) (k : Nat) (l : Line) : Prop where
  i : l.i = k
  frequencies : ∀ j, j < k → l.frequencies j = gridPoint g j
  f : k ≤ g.fPoints → l.f = gridPoint g k
  df : k ≤ g.fPoints → l.df = (g.fPoints / 2 + g.fError * k) % g.fPoints

theorem lineRound_table (l : Line) (step delta error : Nat) :
    (lineRound step delta error l).frequencies = Function.update l.frequencies l.i l.f := by
  unfold lineRound
  dsimp only
  split <;> rfl

theorem lineRound_i (l : Line) (step delta error : Nat) :
    (lineRound step delta error l).i = l.i + 1 := by
  unfold lineRound
  dsimp only
  split <;> rfl

theorem lineRound_of_lt (l : Line) (step delta error : Nat) (hsum : l.df + error < 2 ^ 32) :
    lineRound step delta error l =
      if step ≤ l.df + error then
        ⟨l.i + 1, u32 (l.f + 1 + delta), l.df + error - step,
          Function.update l.frequencies l.i l.f⟩
      else ⟨l.i + 1, u32 (l.f + delta), l.df + error, Function.update l.frequencies l.i l.f⟩ := by
  unfold lineRound
  rw [u32_of_lt hsum, u32_u32_add]
  dsimp only
  split
  · rename_i hcarry
    rw [sub32_of_le hsum hcarry]
  · rfl

theorem lineRound_f (l : Line) (step delta error : Nat) (hsum : l.df + error < 2 ^ 32) :
    (lineRound step delta error l).f =
      u32 (l.f + (if step ≤ l.df + error then 1 else 0) + delta) := by
  rw [lineRound_of_lt l step delta error hsum]
  split <;> rfl

theorem lineRound_df (l : Line) (step delta error : Nat) (hsum : l.df + error < 2 ^ 32)
    (hdf : l.df < step) (herror : error < step) :
    (lineRound step delta error l).df = (l.df + error) % step := by
  rw [lineRound_of_lt l step delta error hsum]
  by_cases hcarry : step ≤ l.df + error
  · rw [if_pos hcarry, Nat.mod_eq_sub_mod hcarry, Nat.mod_eq_of_lt (by omega)]
  · rw [if_neg hcarry, Nat.mod_eq_of_lt (Nat.lt_of_not_le hcarry)]

theorem lineRound_inv (h : GridOk g start stop points) (hle : start ≤ stop)
    (hstop : stop ≤ frequencyMax) (hhi : points ≤ sweepPointsMax board) {k : Nat} {l : Line}
    (hk : k ≤ g.fPoints) (hl : LineInv g k l) :
    LineInv g (k + 1) (lineRound g.fPoints g.fDelta g.fError l) := by
  have hf := hl.f hk
  have hdf := hl.df hk
  have hpoints := h.fPoints
  have hmod := Nat.mod_lt (g.fPoints / 2 + g.fError * k) h.positive
  have hsum : l.df + g.fError < 2 ^ 32 := by
    have hboard : points ≤ 401 := by cases board <;> simp only [sweepPointsMax] at hhi <;> omega
    have herror := h.fError
    rw [hdf]
    omega
  refine ⟨by rw [lineRound_i, hl.i], fun j hj => ?_, fun hk => ?_, fun _ => ?_⟩
  · rw [lineRound_table, hl.i]
    obtain hlt | rfl := Nat.lt_succ_iff_lt_or_eq.mp hj
    · rw [Function.update_of_ne (Nat.ne_of_lt hlt)]
      exact hl.frequencies j hlt
    · rw [Function.update_self, hf]
  · have hmax : gridPoint g (k + 1) < 2 ^ 32 :=
      Nat.lt_of_le_of_lt (gridPoint_le h hle (by omega)) (Nat.lt_of_le_of_lt hstop (by decide))
    rw [lineRound_f _ _ _ _ hsum, hf, hdf, Nat.add_right_comm, ← gridPoint_succ h k]
    exact u32_of_lt hmax
  · rw [lineRound_df _ _ _ _ hsum (hdf ▸ hmod) h.fError, hdf, Nat.mod_add_mod, Nat.mul_succ,
      Nat.add_assoc]

theorem lineLoop_inv (h : GridOk g start stop points) (hle : start ≤ stop)
    (hstop : stop ≤ frequencyMax) (hhi : points ≤ sweepPointsMax board) (table : Nat → Nat)
    {k : Nat} (hk : k ≤ g.fPoints + 1) :
    LineInv g k (lineLoop g.fPoints g.fDelta g.fError k ⟨0, start, g.fPoints / 2, table⟩) := by
  induction k with
  | zero =>
    refine ⟨rfl, fun j hj => absurd hj (Nat.not_lt_zero j), fun _ => ?_, fun _ => ?_⟩
    · exact (gridPoint_zero h).symm
    · rw [Nat.mul_zero, Nat.add_zero, Nat.mod_eq_of_lt (Nat.div_lt_self h.positive (by decide))]
      rfl
  | succ k ih =>
    exact lineRound_inv h hle hstop hhi (by omega) (ih (by omega))

theorem table_eq_gridPoint (hle : start ≤ stop) (hstop : stop ≤ frequencyMax) (hlo : 2 ≤ points)
    (hhi : points ≤ sweepPointsMax board) (table : Nat → Nat) {i : Nat} (hi : i < points) :
    tableSetFrequencies board start stop points table i =
      gridPoint (appMeasurementSetFrequencies start stop points) i := by
  have h := grid_ok hle hstop hlo hhi
  have hinv := lineLoop_inv h hle hstop hhi table (Nat.le_refl _)
  have hend := hinv.i
  have hrow := hinv.frequencies i (by have := h.fPoints; omega)
  have hboard : points ≤ 401 := by cases board <;> simp only [sweepPointsMax] at hhi <;> omega
  have hstep : sub32 points 1 = (points + 65535) % 65536 := by
    rw [sub32_of_le (by omega) (by omega)]
    omega
  simp only [appMeasurementSetFrequencies] at hend hrow
  unfold tableSetFrequencies
  simp only [hstep, hend]
  rw [if_neg (by omega)]
  exact hrow

theorem round_ratio (a b : Nat) (hb : 0 < b) : round ((a : ℚ) / b) = ((b / 2 + a) / b : Nat) := by
  have hhalf : (a : ℚ) / b + 1 / 2 = ((2 * a + b : Nat) : ℚ) / (2 * b : Nat) := by
    have hne : (b : ℚ) ≠ 0 := Nat.cast_ne_zero.mpr (Nat.ne_of_gt hb)
    push_cast
    field_simp
  have hdiv : (2 * a + b) / (2 * b) = (b / 2 + a) / b := by
    rw [← Nat.div_div_eq_div_mul, Nat.mul_add_div (by decide), Nat.add_comm]
  rw [round_eq, hhalf, Rat.floor_natCast_div_natCast, ← Int.natCast_ediv, hdiv]

theorem gridPoint_round (h : GridOk g start stop points) (hle : start ≤ stop) (hlo : 2 ≤ points)
    (i : Nat) :
    (gridPoint g i : ℤ) =
      round ((start : ℚ) + i * ((stop : ℚ) - start) / ((points : ℚ) - 1)) := by
  have hpoints : (g.fPoints : ℚ) = (points : ℚ) - 1 := by
    rw [h.fPoints, Nat.cast_sub (by omega), Nat.cast_one]
  have hspan : (g.fDelta : ℚ) * g.fPoints + g.fError = (stop : ℚ) - start := by
    rw [← Nat.cast_sub hle, ← h.span]
    push_cast
    rfl
  have hne : (g.fPoints : ℚ) ≠ 0 := Nat.cast_ne_zero.mpr (Nat.ne_of_gt h.positive)
  have hvalue : (start : ℚ) + i * ((stop : ℚ) - start) / ((points : ℚ) - 1) =
      ((start + g.fDelta * i : Nat) : ℤ) + ((g.fError * i : Nat) : ℚ) / g.fPoints := by
    rw [← hpoints, ← hspan]
    push_cast
    field_simp
    ring
  rw [hvalue, round_intCast_add, round_ratio _ _ h.positive, gridPoint, h.fStart]
  push_cast
  rfl

/-- Both builds put the points of a sweep on the same grid: from start to stop, in order, each
the nearest integer to its place, and without an overflow. -/
theorem frequencies_exact (hle : start ≤ stop) (hstop : stop ≤ frequencyMax) (hlo : 2 ≤ points)
    (hhi : points ≤ sweepPointsMax board) (table : Nat → Nat) :
    let g := appMeasurementSetFrequencies start stop points
    getFrequency g 0 = start ∧ getFrequency g (points - 1) = stop ∧
    (∀ i j, i ≤ j → j < points → getFrequency g i ≤ getFrequency g j) ∧
    (∀ i, i < points → (getFrequency g i : ℤ) =
      round ((start : ℚ) + i * ((stop : ℚ) - start) / ((points : ℚ) - 1))) ∧
    (∀ i, i < points → NoOverflow g i) ∧
    ∀ i, i < points → tableSetFrequencies board start stop points table i = getFrequency g i := by
  intro g
  have h := grid_ok hle hstop hlo hhi
  have hfits : ∀ i, i < points → NoOverflow g i := fun i => noOverflow h hle hstop hhi
  have heq : ∀ i, i < points → getFrequency g i = gridPoint g i :=
    fun i hi => (hfits i hi).getFrequency_eq
  refine ⟨?_, ?_, fun i j hij hj => ?_, fun i hi => ?_, hfits, fun i hi => ?_⟩
  · rw [heq 0 (by omega)]
    exact gridPoint_zero h
  · rw [heq _ (by omega), ← h.fPoints]
    exact gridPoint_last h hle
  · rw [heq i (by omega), heq j hj]
    exact gridPoint_mono g hij
  · rw [heq i hi]
    exact gridPoint_round h hle hlo i
  · rw [heq i hi]
    exact table_eq_gridPoint hle hstop hlo hhi table hi

/-- The default range of the larger board, on cleared memory. -/
theorem frequencies_exact_default :
    let g := appMeasurementSetFrequencies 50000 900000000 401
    getFrequency g 0 = 50000 ∧ getFrequency g 400 = 900000000 ∧
    (∀ i j, i ≤ j → j < 401 → getFrequency g i ≤ getFrequency g j) ∧
    (∀ i, i < 401 → (getFrequency g i : ℤ) =
      round (((50000 : Nat) : ℚ) + i * (((900000000 : Nat) : ℚ) - (50000 : Nat)) /
        (((401 : Nat) : ℚ) - 1))) ∧
    (∀ i, i < 401 → NoOverflow g i) ∧
    ∀ i, i < 401 →
      tableSetFrequencies .f303 50000 900000000 401 (fun _ => 0) i = getFrequency g i :=
  @frequencies_exact .f303 50000 900000000 401 (by decide) (by decide) (by decide) (by decide)
    fun _ => 0

end NanoVNA.FrequencyTable
