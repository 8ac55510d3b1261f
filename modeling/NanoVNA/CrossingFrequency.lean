import Mathlib.Tactic.FieldSimp
import Mathlib.Tactic.IntervalCases
import Mathlib.Tactic.LinearCombination
import Mathlib.Tactic.Linarith
import Mathlib.Tactic.Positivity
import NanoVNA.SampleSearch

namespace NanoVNA.CrossingFrequency

open NanoVNA.MatchQuadratic NanoVNA.SampleSearch

/-! ### The root that is taken -/

section Roots

variable {a b c : ℝ}

/-- The first root when it is strictly between 0 and 1, or else the second one. -/
noncomputable def chosen (a b c : ℝ) : ℝ :=
  let r := matchQuadraticEquation Real.sqrt a b c
  if 0 < r.1 ∧ r.1 < 1 then r.1 else r.2

theorem unit_iff {x : ℝ} : 0 ≤ x * (1 - x) ↔ x ∈ Set.Icc 0 1 := by
  rw [Set.mem_Icc, mul_nonneg_iff]
  constructor
  · rintro (h | h)
    · exact ⟨h.1, by linarith [h.2]⟩
    · exact absurd (h.1.trans_lt (by linarith [h.2])) (lt_irrefl x)
  · rintro ⟨h0, h1⟩
    exact Or.inl ⟨h0, by linarith⟩

structure IsRoots (a b c r1 r2 : ℝ) : Prop where
  sum : a * (r1 + r2) = -b
  product : a * (r1 * r2) = c
  order : (0 < a → r2 ≤ r1) ∧ (a < 0 → r1 ≤ r2)

theorem isRoots_solver (ha : vnaEpsilon ≤ |2 * a|) (hd : 0 ≤ discrim a b c) :
    IsRoots a b c (matchQuadraticEquation Real.sqrt a b c).1
      (matchQuadraticEquation Real.sqrt a b c).2 := by
  have hne := ne_zero_of_epsilon_le ha
  have hsqrt : √(discrim a b c) * √(discrim a b c) = b ^ 2 - 4 * a * c := Real.mul_self_sqrt hd
  have hpos := Real.sqrt_nonneg (discrim a b c)
  rw [solver_eq ha hd]
  refine ⟨?_, ?_, fun hpos' => ?_, fun hneg => ?_⟩
  · field_simp
    ring
  · field_simp
    linear_combination -hsqrt
  · exact div_le_div_of_nonneg_right (by linarith) (by linarith)
  · exact div_le_div_of_nonpos_of_le (by linarith) (by linarith)

theorem chosen_eq (a b c : ℝ) :
    chosen a b c = (matchQuadraticEquation Real.sqrt a b c).1 ∧
        (matchQuadraticEquation Real.sqrt a b c).1 ∈ Set.Ioo 0 1 ∨
      chosen a b c = (matchQuadraticEquation Real.sqrt a b c).2 ∧
        (matchQuadraticEquation Real.sqrt a b c).1 ∉ Set.Ioo 0 1 := by
  unfold chosen
  dsimp only
  split
  next h => exact Or.inl ⟨rfl, h⟩
  next h => exact Or.inr ⟨rfl, h⟩

section Roots

variable {r1 r2 : ℝ}

theorem IsRoots.second_mem_of_hit (h : IsRoots a b c 1 r2) (hne : a ≠ 0) (hc : 0 < c) :
    r2 ∈ Set.Icc 0 1 := by
  have hprod := h.product
  rw [one_mul] at hprod
  obtain hneg | hpos := lt_or_gt_of_ne hne
  · have hle := h.order.2 hneg
    have hlt := mul_neg_of_neg_of_pos hneg (lt_of_lt_of_le one_pos hle)
    linarith
  · refine ⟨?_, h.order.1 hpos⟩
    rw [← hprod] at hc
    exact (pos_of_mul_pos_right hc hpos.le).le

theorem IsRoots.value_one (h : IsRoots a b c r1 r2) :
    a * ((1 - r1) * (1 - r2)) = a + b + c := by
  linear_combination h.product - h.sum

theorem IsRoots.second_mem (h : IsRoots a b c r1 r2) (hne : a ≠ 0) (hc : c ≠ 0)
    (hsign : c * (a + b + c) ≤ 0) (hnot : r1 ∉ Set.Ioo 0 1) (hone : r1 ≠ 1) :
    r2 ∈ Set.Icc 0 1 := by
  have hends : a * a * (r1 * (1 - r1) * (r2 * (1 - r2))) = c * (a + b + c) := by
    linear_combination h.value_one * (a * (r1 * r2)) + (a + b + c) * h.product
  have hfirst : r1 * (1 - r1) ≤ 0 := by
    by_contra hpos
    obtain ⟨h0, h1⟩ | ⟨h0, h1⟩ := mul_pos_iff.mp (not_le.mp hpos)
    · exact hnot ⟨h0, by linarith⟩
    · linarith
  have hzero : r1 ≠ 0 := by
    rintro rfl
    have hprod := h.product
    rw [zero_mul, mul_zero] at hprod
    exact hc hprod.symm
  have hlt : r1 * (1 - r1) < 0 :=
    lt_of_le_of_ne hfirst (mul_ne_zero hzero (sub_ne_zero.mpr hone.symm))
  rw [← unit_iff]
  by_contra hneg
  have hpos := mul_pos_of_neg_of_neg hlt (not_le.mp hneg)
  have hprod := mul_pos (mul_self_pos.mpr hne) hpos
  linarith

end Roots

theorem chosen_mem (ha : vnaEpsilon ≤ |2 * a|) (hc : c ≠ 0) (hsign : c * (a + b + c) ≤ 0)
    (hhit : a + b + c = 0 → 0 < c) : chosen a b c ∈ Set.Icc 0 1 := by
  have hd : 0 ≤ discrim a b c := by
    have hsquare := mul_self_nonneg (b + 2 * c)
    rw [discrim]
    nlinarith
  have hne := ne_zero_of_epsilon_le ha
  have hroots := isRoots_solver ha hd
  obtain ⟨heq, hmem⟩ | ⟨heq, hnot⟩ := chosen_eq a b c
  · rw [heq]
    exact Set.Ioo_subset_Icc_self hmem
  · rw [heq]
    by_cases hone : (matchQuadraticEquation Real.sqrt a b c).1 = 1
    · rw [hone] at hroots
      have hvalue := hroots.value_one
      rw [sub_self, zero_mul, mul_zero] at hvalue
      exact hroots.second_mem_of_hit hne (hhit hvalue.symm)
    · exact hroots.second_mem hne hc hsign hnot hone

theorem chosen_not_mem (ha : vnaEpsilon ≤ |2 * a|) (hb : 0 < b) (hab : 0 < a + b) :
    chosen a b 0 ∉ Set.Icc 0 1 := by
  have hne := ne_zero_of_epsilon_le ha
  have hdisc : discrim a b 0 = b * b := by
    rw [discrim]
    ring
  have hroots := solver_eq ha (b := b) (c := 0) (by rw [hdisc]; exact mul_self_nonneg b)
  rw [hdisc, Real.sqrt_mul_self hb.le, neg_add_cancel, zero_div] at hroots
  have hchosen : chosen a b 0 = (-b - b) / (2 * a) := by
    obtain ⟨-, hmem⟩ | ⟨heq, -⟩ := chosen_eq a b 0
    · rw [hroots] at hmem
      exact absurd hmem.1 (lt_irrefl 0)
    · rw [heq, hroots]
  rw [hchosen]
  rintro ⟨h0, h1⟩
  obtain hneg | hpos := lt_or_gt_of_ne hne
  · rw [div_le_one_of_neg (by linarith)] at h1
    linarith
  · rw [le_div_iff₀ (by linarith)] at h0
    linarith

theorem chosen_linear (ha : |2 * a| < vnaEpsilon) :
    chosen a b c = if vnaEpsilon < |b| then -c / b else 0 := by
  simp only [chosen, matchQuadraticEquation, if_pos ha]
  split <;> simp

theorem chosen_symmetric : chosen a (-a) c ∈ Set.Icc 0 1 ↔ (vnaEpsilon ≤ |2 * a| → 0 ≤ a * c) := by
  by_cases ha : vnaEpsilon ≤ |2 * a|
  · rw [forall_prop_of_true ha]
    have hne := ne_zero_of_epsilon_le ha
    obtain hd | hd := lt_or_ge (discrim a (-a) c) 0
    · have hdisc : -a * -a - 2 * (2 * a) * c < 0 := by
        rw [discrim] at hd
        linarith
      have hzero : chosen a (-a) c = 0 := by
        simp only [chosen, matchQuadraticEquation, if_neg ha.not_gt, if_pos hdisc]
        simp
      rw [hzero]
      refine iff_of_true ⟨le_refl 0, zero_le_one⟩ ?_
      linarith [mul_self_nonneg a]
    · obtain ⟨hsum, hprod, -⟩ := isRoots_solver ha hd
      have hcases := chosen_eq a (-a) c
      generalize (matchQuadraticEquation Real.sqrt a (-a) c).1 = r1 at *
      generalize (matchQuadraticEquation Real.sqrt a (-a) c).2 = r2 at *
      have hone : r1 + r2 = 1 := by
        apply mul_left_cancel₀ hne
        linear_combination hsum
      have hsecond : 0 ≤ a * c ↔ r2 ∈ Set.Icc 0 1 := by
        have hac : a * c = a * a * (r2 * (1 - r2)) := by
          rw [← hprod, ← hone]
          ring
        rw [hac, ← unit_iff, mul_nonneg_iff_of_pos_left (mul_self_pos.mpr hne)]
      obtain ⟨heq, hmem⟩ | ⟨heq, -⟩ := hcases
      · rw [heq, hsecond]
        refine iff_of_true (Set.Ioo_subset_Icc_self hmem) ⟨?_, ?_⟩
        · linarith [hmem.2]
        · linarith [hmem.1]
      · rw [heq, hsecond]
  · refine iff_of_true ?_ fun h => absurd h ha
    have hsmall : |2 * a| < vnaEpsilon := not_le.mp ha
    have hflat : ¬ vnaEpsilon < |-a| := by
      rw [abs_mul, abs_two] at hsmall
      rw [abs_neg]
      linarith [abs_nonneg a]
    rw [chosen_linear hsmall, if_neg hflat]
    exact ⟨le_refl 0, zero_le_one⟩

end Roots

section Place

variable {y y1 y2 y3 : ℝ}

noncomputable def place (y y1 y2 y3 : ℝ) : ℝ :=
  chosen (1 / 2 * (y1 + y3) - y2) (1 / 2 * (y3 - y1)) (y2 - y)

/-- The second value is not the target; where the three are nearly on a line, the target is not
beyond the third one by the slope of the outer two. -/
def PairFits (y y1 y2 y3 : ℝ) : Prop :=
  if vnaEpsilon ≤ |y1 + y3 - 2 * y2| then y2 ≠ y
  else vnaEpsilon < |1 / 2 * (y3 - y1)| → (y - y2) / (1 / 2 * (y3 - y1)) ∈ Set.Icc 0 1

/-- The first sample is not read, and the second one stands for it. -/
def StaleFits (y y1 y2 : ℝ) : Prop := vnaEpsilon ≤ |y1 - y2| → 0 ≤ (y1 - y2) * (y2 - y)

theorem double_bend : 2 * (1 / 2 * (y1 + y3) - y2) = y1 + y3 - 2 * y2 := by ring

theorem place_pair (hside : y < y1 ↔ y < y2) (hpair : Straddles y y2 y3) :
    place y y1 y2 y3 ∈ Set.Icc 0 1 ↔ PairFits y y1 y2 y3 := by
  unfold PairFits place
  have hend : 1 / 2 * (y1 + y3) - y2 + 1 / 2 * (y3 - y1) + (y2 - y) = y3 - y := by ring
  split
  next hbend =>
    rw [← double_bend] at hbend
    constructor
    · rintro hmem rfl
      have hrise : y2 < y3 := by
        by_contra hle
        exact hpair (iff_of_false (lt_irrefl y2) hle)
      have hbefore : y1 ≤ y2 := not_lt.mp fun hlt => lt_irrefl y2 (hside.mp hlt)
      rw [sub_self] at hmem
      exact chosen_not_mem hbend (by linarith) (by linarith) hmem
    · intro hne
      refine chosen_mem hbend (sub_ne_zero.mpr hne) ?_ ?_
      · rw [hend]
        by_cases habove : y < y2
        · have hbelow : y3 ≤ y := not_lt.mp fun hlt => hpair (iff_of_true habove hlt)
          exact mul_nonpos_of_nonneg_of_nonpos (by linarith) (by linarith)
        · have habove' : y < y3 := by
            by_contra hle
            exact hpair (iff_of_false habove hle)
          exact mul_nonpos_of_nonpos_of_nonneg (by linarith) (by linarith)
      · intro hhit
        rw [hend] at hhit
        have habove : y < y2 := by
          by_contra hle
          exact hpair (iff_of_false hle (by linarith))
        linarith
  next hline =>
    rw [← double_bend, not_le] at hline
    rw [chosen_linear hline, neg_sub]
    split
    next hslope => exact ⟨fun hmem _ => hmem, fun hmem => hmem hslope⟩
    next hflat => exact iff_of_true ⟨le_refl 0, zero_le_one⟩ fun h => absurd h hflat

theorem place_stale : place y y1 y2 y2 ∈ Set.Icc 0 1 ↔ StaleFits y y1 y2 := by
  have hbend : 1 / 2 * (y1 + y2) - y2 = 1 / 2 * (y1 - y2) := by ring
  have hslope : 1 / 2 * (y2 - y1) = -(1 / 2 * (y1 - y2)) := by ring
  have hdouble : 2 * (1 / 2 * (y1 - y2)) = y1 - y2 := by ring
  have hsign : 0 ≤ 1 / 2 * (y1 - y2) * (y2 - y) ↔ 0 ≤ (y1 - y2) * (y2 - y) := by
    rw [mul_assoc]
    exact mul_nonneg_iff_of_pos_left one_half_pos
  rw [place, hbend, hslope, chosen_symmetric, hdouble, hsign, StaleFits]

end Place

/-! ### The frequency of the crossing -/

section Frequencies

variable {get : ℕ → ℝ} {y : ℝ} {points : ℕ} {mode : Mode} {start k : ℕ}

def lineFrequency (frequency0 step : ℝ) (i : ℕ) : ℝ := frequency0 + step * i

theorem between_next {f step res : ℝ} (hstep : 0 ≤ step) :
    f + step * res ∈ Set.uIcc f (f + step) ↔ step = 0 ∨ res ∈ Set.Icc 0 1 := by
  obtain rfl | hpos := hstep.eq_or_lt
  · simp
  · have hright : step * res ≤ step ↔ res ≤ 1 := mul_le_iff_le_one_right hpos
    have hleft : 0 ≤ step * res ↔ 0 ≤ res := mul_nonneg_iff_of_pos_left hpos
    rw [Set.uIcc_of_le (by linarith), Set.mem_Icc, Set.mem_Icc, le_add_iff_nonneg_right,
      add_le_add_iff_left, hleft, hright]
    exact ⟨Or.inr, fun h => h.resolve_left hpos.ne'⟩

theorem between_previous {f step res : ℝ} (hstep : 0 ≤ step) :
    f + step + step * -res ∈ Set.uIcc (f + step) f ↔ step = 0 ∨ res ∈ Set.Icc 0 1 := by
  have hmirror : f + step + step * -res = f + step * (1 - res) := by ring
  rw [hmirror, Set.uIcc_comm, between_next hstep, Set.mem_Icc, Set.mem_Icc, sub_nonneg,
    sub_le_self_iff, and_comm]

theorem sampleIndex_succ (hk : k + 1 < pathLength points mode start) :
    match mode with
    | .left => sampleIndex .left start k = sampleIndex .left start (k + 1) + 1
    | .right => sampleIndex .right start (k + 1) = sampleIndex .right start k + 1 := by
  cases mode with
  | left =>
    simp only [pathLength] at hk
    simp only [sampleIndex]
    split at hk <;> omega
  | right => exact (Nat.add_assoc start k 1).symm

theorem side_before (hcross : Crosses get y points mode start k)
    (hfirst : ∀ i < k, ¬ Crosses get y points mode start i) :
    y < sample get mode start (k - 1) ↔ y < sample get mode start k := by
  cases k with
  | zero => exact Iff.rfl
  | succ k =>
    by_contra hne
    exact hfirst k (Nat.lt_succ_self k) ⟨Nat.lt_of_succ_lt hcross.1, hne⟩

def Fits (get : ℕ → ℝ) (y : ℝ) (points : ℕ) (mode : Mode) (start k : ℕ) : Prop :=
  if k + 1 < reads points mode start then
    PairFits y (sample get mode start (k - 1)) (sample get mode start k)
      (sample get mode start (k + 1))
  else StaleFits y (sample get mode start (k - 1)) (sample get mode start k)

theorem crossingPlace_mem (hcross : Crosses get y points mode start k)
    (hfirst : ∀ i < k, ¬ Crosses get y points mode start i) :
    crossingPlace y Real.sqrt (crossingWindow get points mode start k) ∈ Set.Icc 0 1 ↔
      Fits get y points mode start k := by
  have hplace : crossingPlace y Real.sqrt (crossingWindow get points mode start k) =
      place y (sample get mode start (k - 1)) (sample get mode start k)
        (sample get mode start (if k + 1 < reads points mode start then k + 1 else k)) := rfl
  rw [hplace, Fits]
  split
  next => exact place_pair (side_before hcross hfirst) hcross.2
  next => exact place_stale

theorem between_at (frequency0 : ℝ) {step : ℝ} (hstep : 0 ≤ step) (markerIdx : Option ℕ)
    (hcross : Crosses get y points mode start k)
    (hfirst : ∀ i < k, ¬ Crosses get y points mode start i) :
    (∀ found, measureSearchValue get y points Real.sqrt (lineFrequency frequency0 step) step mode
        markerIdx start = some found →
      found.frequency ∈ Set.uIcc (lineFrequency frequency0 step (sampleIndex mode start k))
        (lineFrequency frequency0 step (sampleIndex mode start (k + 1)))) ↔
      step = 0 ∨ Fits get y points mode start k := by
  have hfound := found_of_first Real.sqrt (lineFrequency frequency0 step) step markerIdx hcross
    hfirst
  have hindex := sampleIndex_succ hcross.1
  have hline (i : ℕ) : lineFrequency frequency0 step (i + 1) =
      lineFrequency frequency0 step i + step := by
    simp only [lineFrequency, Nat.cast_add, Nat.cast_one]
    ring
  rw [hfound, ← crossingPlace_mem hcross hfirst]
  simp only [Option.some.injEq, forall_eq']
  cases mode with
  | left =>
    dsimp only at hindex
    rw [hindex, hline, if_pos rfl, between_previous hstep]
  | right =>
    dsimp only at hindex
    rw [hindex, hline, if_neg (by simp), between_next hstep]

variable (get y points mode start)

/-- The frequency of the first crossing lies between those of its two samples. -/
def Between (frequency0 step : ℝ) (markerIdx : Option ℕ) : Prop :=
  ∀ k found, Crosses get y points mode start k → (∀ i < k, ¬ Crosses get y points mode start i) →
    measureSearchValue get y points Real.sqrt (lineFrequency frequency0 step) step mode markerIdx
      start = some found →
    found.frequency ∈ Set.uIcc (lineFrequency frequency0 step (sampleIndex mode start k))
      (lineFrequency frequency0 step (sampleIndex mode start (k + 1)))

theorem between_iff (frequency0 : ℝ) {step : ℝ} (hstep : 0 ≤ step) (markerIdx : Option ℕ) :
    Between get y points mode start frequency0 step markerIdx ↔
      step = 0 ∨ ∀ k, Crosses get y points mode start k →
        (∀ i < k, ¬ Crosses get y points mode start i) → Fits get y points mode start k := by
  constructor
  · intro h
    by_cases hzero : step = 0
    · exact Or.inl hzero
    · refine Or.inr fun k hcross hfirst => ?_
      have hat := (between_at frequency0 hstep markerIdx hcross hfirst).mp fun found =>
        h k found hcross hfirst
      exact hat.resolve_left hzero
  · intro h k found hcross hfirst
    refine (between_at frequency0 hstep markerIdx hcross hfirst).mpr ?_ found
    exact h.imp_right fun hfits => hfits k hcross hfirst

/-- On a line, the place of the target is exact. -/
theorem between_iff_line : (0 : ℝ) ≤ 1 ∧
    Between (fun i => (i : ℝ)) (3 / 2) 3 .right 0 0 1 none := by
  refine ⟨zero_le_one, (between_iff _ _ _ _ _ 0 zero_le_one none).mpr (Or.inr ?_)⟩
  intro k hcross hfirst
  obtain ⟨hk, hpair⟩ := hcross
  have hk' : k < 2 := Nat.lt_of_succ_lt_succ hk
  interval_cases k
  · refine absurd (iff_of_false ?_ ?_) hpair <;> norm_num [sample, sampleIndex]
  · norm_num [Fits, reads, PairFits, sample, sampleIndex, vnaEpsilon]

/-- The first sample is the target, and the values rise from there: the frequency that is found
is one step in front of it. -/
theorem not_between : ¬ Between (fun i => (i : ℝ)) 0 3 .right 0 0 1 none := by
  intro h
  have hcross : Crosses (fun i => (i : ℝ)) 0 3 .right 0 0 := by
    refine ⟨by simp [pathLength], ?_⟩
    simp [Straddles, sample, sampleIndex]
  have hnone (i : ℕ) (hi : i < 0) : ¬ Crosses (fun i => (i : ℝ)) 0 3 .right 0 i := by
    exact absurd hi (Nat.not_lt_zero i)
  have hat := (between_at 0 zero_le_one none hcross hnone).mp fun found =>
    h 0 found hcross hnone
  norm_num [Fits, reads, PairFits, sample, sampleIndex, vnaEpsilon] at hat

end Frequencies

end NanoVNA.CrossingFrequency
