import Mathlib.Analysis.Complex.Basic
import Mathlib.Tactic.FieldSimp
import Mathlib.Tactic.LinearCombination
import NanoVNA.MatchQuadratic
import NanoVNA.Readouts

namespace NanoVNA.LcMatch

open NanoVNA.DeviceState NanoVNA.Readouts NanoVNA.MatchQuadratic

/-! ### The networks of two reactances -/

/-- `t_lc_match`: parallel to the source, in series, parallel to the load; a part that is zero is
left out. -/
structure Match (K : Type) where
  xps : K
  xs : K
  xpl : K

section Code

variable {K : Type} [Field K] [LinearOrder K] (sqrt : K → K) (R0 RL XL : K)

abbrev Coefficients (K : Type) := K × K × K

def hiCoefficients : Coefficients K := (R0 - RL, 2 * XL * R0, R0 * (XL * XL + RL * RL))

def hiMatch (xp : K) : Match K :=
  let XL1 := XL + xp
  { xs := xp * xp * XL1 / (RL * RL + XL1 * XL1) - xp, xps := 0, xpl := xp }

def lcMatchCalcHi : List (Match K) :=
  let (a, b, c) := hiCoefficients R0 RL XL
  let xp := matchQuadraticEquation sqrt a b c
  [hiMatch RL XL xp.1, hiMatch RL XL xp.2]

def loCoefficients : Coefficients K := (1, 2 * XL, RL * RL + XL * XL - R0 * RL)

def loMatch (xs : K) : Match K :=
  let XL1 := XL + xs
  let RL1 := RL - R0
  { xs := xs, xps := -R0 * R0 * XL1 / (RL1 * RL1 + XL1 * XL1), xpl := 0 }

def lcMatchCalcLo : List (Match K) :=
  let (a, b, c) := loCoefficients R0 RL XL
  let xs := matchQuadraticEquation sqrt a b c
  [loMatch R0 RL XL xs.1, loMatch R0 RL XL xs.2]

/-- The standing wave ratio, `none` for an infinite one. -/
def swr (v : Sample K) : Option K :=
  let x := sqrt (getL v.re v.im)
  if 99 / 100 < x then none else some ((1 + x) / (1 - x))

def Searches (RL XL : K) (vswr : Option K) : Prop :=
  1 / 2 < RL ∧ XL / RL < 100 ∧ ∀ s ∈ vswr, 11 / 10 < s

def Near (R0 RL : K) : Prop := R0 < RL * (11 / 10) ∧ RL < R0 * (11 / 10)

instance : Decidable (Near R0 RL) := inferInstanceAs (Decidable (_ ∧ _))

def lcMatchCalc (portZ : K) (v : Sample K) : Int × List (Match K) :=
  let RL := resistance portZ v
  let XL := reactance portZ v
  if RL ≤ 1 / 2 then (-1, [])
  else if (swr sqrt v).any (· ≤ 11 / 10) ∨ 100 ≤ XL / RL then (0, [])
  else if Near R0 RL then (1, [{ xpl := 0, xps := 0, xs := -XL }])
  else if R0 ≤ RL ∨ R0 * RL < RL * RL + XL * XL then
    let matches0 := lcMatchCalcHi sqrt R0 RL XL
    if R0 ≤ RL then (2, matches0) else (4, matches0 ++ lcMatchCalcLo sqrt R0 RL XL)
  else (2, lcMatchCalcLo sqrt R0 RL XL)

end Code

/-! ### The impedance behind a network -/

noncomputable def shunt (x : ℝ) (Z : ℂ) : ℂ :=
  if x = 0 then Z else Z * (x * Complex.I) / (Z + x * Complex.I)

noncomputable def Match.input (m : Match ℝ) (load : ℂ) : ℂ :=
  shunt m.xps (shunt m.xpl load + m.xs * Complex.I)

section Networks

variable {R0 RL XL : ℝ}

theorem sum_squares_pos {r : ℝ} (hr : r ≠ 0) (y : ℝ) : 0 < r * r + y * y :=
  add_pos_of_pos_of_nonneg (mul_self_pos.mpr hr) (mul_self_nonneg y)

theorem load_ne_zero (hRL : RL ≠ 0) (X x : ℝ) : (⟨RL, X⟩ : ℂ) + x * Complex.I ≠ 0 := by
  intro h
  have hre := congrArg Complex.re h
  simp at hre
  exact hRL hre

theorem hi_input (hRL : RL ≠ 0) {x : ℝ} (hx : x ≠ 0)
    (hroot : (R0 - RL) * (x * x) + 2 * XL * R0 * x + R0 * (XL * XL + RL * RL) = 0) :
    (hiMatch RL XL x).input ⟨RL, XL⟩ = R0 := by
  have hD := (sum_squares_pos hRL (XL + x)).ne'
  have hR0 : R0 * (RL * RL + (XL + x) * (XL + x)) = RL * (x * x) := by
    linear_combination hroot
  obtain ⟨s, hs⟩ : ∃ s, s = x * x * (XL + x) / (RL * RL + (XL + x) * (XL + x)) - x := ⟨_, rfl⟩
  have hseries : s * (RL * RL + (XL + x) * (XL + x)) = -x * (RL * RL + XL * (XL + x)) := by
    rw [hs, sub_mul, div_mul_cancel₀ _ hD]
    ring
  have hre : -(XL * x) = R0 * RL + s * (XL + x) := by
    apply mul_right_cancel₀ hD
    linear_combination -RL * hR0 - (XL + x) * hseries
  have him : RL * x = R0 * (XL + x) - s * RL := by
    apply mul_right_cancel₀ hD
    linear_combination -(XL + x) * hR0 + RL * hseries
  rw [Match.input, hiMatch, shunt, if_pos rfl, shunt, if_neg hx, ← hs, ← eq_sub_iff_add_eq,
    div_eq_iff (load_ne_zero hRL XL x)]
  apply Complex.ext
  · simpa using hre
  · simpa [sub_eq_add_neg] using him

theorem lo_input (hR0 : R0 ≠ 0) (hne : RL ≠ R0) (hRL : RL ≠ 0) {x : ℝ}
    (hroot : 1 * (x * x) + 2 * XL * x + (RL * RL + XL * XL - R0 * RL) = 0) :
    (loMatch R0 RL XL x).input ⟨RL, XL⟩ = R0 := by
  have hdiff : RL - R0 ≠ 0 := sub_ne_zero.mpr hne
  have hsquare : (XL + x) * (XL + x) = RL * (R0 - RL) := by
    linear_combination hroot
  have hX : XL + x ≠ 0 := by
    intro h
    rw [h, mul_zero] at hsquare
    exact mul_ne_zero hRL (sub_ne_zero.mpr hne.symm) hsquare.symm
  have hD : (RL - R0) * (RL - R0) + (XL + x) * (XL + x) = R0 * (R0 - RL) := by
    linear_combination hsquare
  obtain ⟨s, hs⟩ : ∃ s,
    s = -R0 * R0 * (XL + x) / ((RL - R0) * (RL - R0) + (XL + x) * (XL + x)) := ⟨_, rfl⟩
  have hsource : s * (RL - R0) = R0 * (XL + x) := by
    rw [hs, hD, div_mul_eq_mul_div, div_eq_iff (mul_ne_zero hR0 (sub_ne_zero.mpr hne.symm))]
    ring
  have hs0 : s ≠ 0 := by
    rintro rfl
    rw [zero_mul] at hsource
    exact mul_ne_zero hR0 hX hsource.symm
  have hre : -((XL + x) * s) = R0 * RL := by
    apply mul_right_cancel₀ hdiff
    linear_combination -(XL + x) * hsource - R0 * hsquare
  have him : RL * s = R0 * (XL + x + s) := by
    linear_combination hsource
  have hbehind : (⟨RL, XL⟩ : ℂ) + x * Complex.I + s * Complex.I ≠ 0 := by
    have hload := load_ne_zero hRL XL (x + s)
    rwa [Complex.ofReal_add, add_mul, ← add_assoc] at hload
  rw [Match.input, loMatch]
  dsimp only
  rw [← hs, shunt, if_neg hs0, shunt, if_pos rfl, div_eq_iff hbehind]
  apply Complex.ext
  · simpa using hre
  · simpa using him

end Networks

section Equations

variable {R0 RL XL : ℝ}

theorem hi_discrim : discrim (R0 - RL) (2 * XL * R0) (R0 * (XL * XL + RL * RL)) =
    4 * R0 * RL * (RL * RL + XL * XL - R0 * RL) := by
  rw [discrim]
  ring

theorem lo_discrim : discrim 1 (2 * XL) (RL * RL + XL * XL - R0 * RL) = 4 * RL * (R0 - RL) := by
  rw [discrim]
  ring

theorem epsilon_le_of_not_near (hRL : 1 / 2 < RL) (hnear : ¬ Near R0 RL) :
    vnaEpsilon ≤ |2 * (R0 - RL)| := by
  have hsmall : (vnaEpsilon : ℝ) ≤ 1 / 11 := by
    rw [vnaEpsilon]
    norm_num
  rw [Near, not_and_or, not_lt, not_lt] at hnear
  obtain hlo | hhi := hnear
  · exact le_trans (by linarith) (le_abs_self _)
  · exact le_trans (by linarith) (neg_le_abs _)

theorem hi_discrim_nonneg (hR0 : 0 < R0) (hRL : 0 < RL)
    (hcase : R0 ≤ RL ∨ R0 * RL < RL * RL + XL * XL) :
    0 ≤ discrim (R0 - RL) (2 * XL * R0) (R0 * (XL * XL + RL * RL)) := by
  have hdiff : 0 ≤ RL * RL + XL * XL - R0 * RL := by
    obtain hle | hlt := hcase
    · have hmul := mul_le_mul_of_nonneg_right hle hRL.le
      linarith [mul_self_nonneg XL]
    · linarith
  rw [hi_discrim]
  positivity

theorem lo_discrim_nonneg (hRL : 0 < RL) (hlt : RL < R0) :
    0 ≤ discrim 1 (2 * XL) (RL * RL + XL * XL - R0 * RL) := by
  have hdiff : 0 ≤ R0 - RL := by linarith
  rw [lo_discrim]
  positivity

theorem hi_matches (hR0 : 0 < R0) (hRL : 1 / 2 < RL) (hnear : ¬ Near R0 RL)
    (hcase : R0 ≤ RL ∨ R0 * RL < RL * RL + XL * XL) :
    ∀ m ∈ lcMatchCalcHi Real.sqrt R0 RL XL, m.input ⟨RL, XL⟩ = R0 := by
  have hpos : 0 < RL := by linarith
  have hroot := solver_iff (epsilon_le_of_not_near hRL hnear) (hi_discrim_nonneg hR0 hpos hcase)
  have hinput : ∀ x, (R0 - RL) * (x * x) + 2 * XL * R0 * x + R0 * (XL * XL + RL * RL) = 0 →
      (hiMatch RL XL x).input ⟨RL, XL⟩ = R0 := by
    intro x hx
    refine hi_input hpos.ne' ?_ hx
    rintro rfl
    have hsquares := sum_squares_pos hpos.ne' XL
    rw [mul_zero, mul_zero, mul_zero, zero_add, zero_add, add_comm] at hx
    exact (mul_pos hR0 hsquares).ne' hx
  intro m hm
  simp only [lcMatchCalcHi, hiCoefficients, List.mem_cons, List.not_mem_nil, or_false] at hm
  obtain rfl | rfl := hm
  · exact hinput _ ((hroot _).mpr (Or.inl rfl))
  · exact hinput _ ((hroot _).mpr (Or.inr rfl))

theorem lo_matches (hR0 : 0 < R0) (hRL : 0 < RL) (hlt : RL < R0) :
    ∀ m ∈ lcMatchCalcLo Real.sqrt R0 RL XL, m.input ⟨RL, XL⟩ = R0 := by
  have hone : (vnaEpsilon : ℝ) ≤ |2 * 1| := by
    rw [vnaEpsilon]
    norm_num
  have hroot := solver_iff hone (@lo_discrim_nonneg R0 RL XL hRL hlt)
  intro m hm
  simp only [lcMatchCalcLo, loCoefficients, List.mem_cons, List.not_mem_nil, or_false] at hm
  obtain rfl | rfl := hm
  · exact lo_input hR0.ne' hlt.ne hRL.ne' ((hroot _).mpr (Or.inl rfl))
  · exact lo_input hR0.ne' hlt.ne hRL.ne' ((hroot _).mpr (Or.inr rfl))

end Equations

/-- Each network that is counted turns the load into the reference, and the equations that are
solved have real roots. -/
structure Solved (R0 : ℝ) (RL XL : ℝ) (result : Int × List (Match ℝ)) : Prop where
  count : result.1 = result.2.length
  found : result.2 ≠ []
  matched : ∀ m ∈ result.2, m.input ⟨RL, XL⟩ = R0
  hiRoots : R0 ≤ RL ∨ R0 * RL < RL * RL + XL * XL →
    0 ≤ discrim (R0 - RL) (2 * XL * R0) (R0 * (XL * XL + RL * RL))
  loRoots : RL < R0 → 0 ≤ discrim 1 (2 * XL) (RL * RL + XL * XL - R0 * RL)

theorem lc_match_solved {R0 portZ : ℝ} {v : Sample ℝ} (hR0 : 0 < R0)
    (hsearch : Searches (resistance portZ v) (reactance portZ v) (swr Real.sqrt v))
    (hnear : ¬ Near R0 (resistance portZ v)) :
    Solved R0 (resistance portZ v) (reactance portZ v) (lcMatchCalc Real.sqrt R0 portZ v) := by
  obtain ⟨hRL, hq, hswr⟩ := hsearch
  have hearly : ¬ ((swr Real.sqrt v).any (· ≤ 11 / 10) ∨
      100 ≤ reactance portZ v / resistance portZ v) := by
    rw [not_or, Option.any_eq_true]
    refine ⟨?_, not_le.mpr hq⟩
    rintro ⟨s, hs, hle⟩
    exact (hswr s hs).not_ge (of_decide_eq_true hle)
  unfold lcMatchCalc
  dsimp only
  rw [if_neg (not_le.mpr hRL), if_neg hearly, if_neg hnear]
  generalize resistance portZ v = RL at *
  generalize reactance portZ v = XL at *
  have hpos : 0 < RL := by linarith
  have hhi := @hi_discrim_nonneg R0 RL XL hR0 hpos
  have hlo := @lo_discrim_nonneg R0 RL XL hpos
  split
  next hcase =>
    have hmatched := hi_matches hR0 hRL hnear hcase
    split
    next hle => exact ⟨rfl, List.cons_ne_nil _ _, hmatched, hhi, hlo⟩
    next hlt =>
      refine ⟨rfl, List.cons_ne_nil _ _, fun m hm => ?_, hhi, hlo⟩
      obtain hm | hm := List.mem_append.mp hm
      · exact hmatched m hm
      · exact lo_matches hR0 hpos (not_le.mp hlt) m hm
  next hcase =>
    rw [not_or, not_le] at hcase
    exact ⟨rfl, List.cons_ne_nil _ _, lo_matches hR0 hpos hcase.1, hhi, hlo⟩

/-- A load that reads as 350 ohms. -/
theorem lc_match_solved_quarter : Solved 50 (resistance 50 ⟨1 / 4, 0⟩) (reactance 50 ⟨1 / 4, 0⟩)
    (lcMatchCalc Real.sqrt 50 50 ⟨1 / 4, 0⟩) := by
  have hr : resistance (50 : ℝ) ⟨1 / 4, 0⟩ = 350 := by
    norm_num [resistance, getS11R, getL]
  have hx : reactance (50 : ℝ) ⟨1 / 4, 0⟩ = 0 := by
    norm_num [reactance, getS11X, getL]
  have hroot : √(getL (1 / 4) 0 : ℝ) = 1 / 4 := by
    rw [getL, mul_zero, add_zero]
    exact Real.sqrt_mul_self (by norm_num)
  apply lc_match_solved (by norm_num)
  · rw [hr, hx, swr, hroot]
    norm_num [Searches]
  · rw [hr]
    norm_num [Near]

end NanoVNA.LcMatch
