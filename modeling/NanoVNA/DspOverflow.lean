import Mathlib.Analysis.Convex.SpecificFunctions.Deriv
import NanoVNA.DspBackend
import NanoVNA.GuardedRun
import NanoVNA.Truncation

namespace NanoVNA.DspOverflow

open NanoVNA.DeviceState NanoVNA.DspBackend NanoVNA.GuardedRun NanoVNA.Truncation

section Code

def FitsInt32 (n : Int) : Prop := -2 ^ 31 ≤ n ∧ n < 2 ^ 31

instance (n : Int) : Decidable (FitsInt32 n) := inferInstanceAs (Decidable (_ ∧ _))

def Fits (s : Accumulators Int) : Prop :=
  (FitsInt32 s.sampS ∧ FitsInt32 s.sampC) ∧ FitsInt32 s.refS ∧ FitsInt32 s.refC

instance (s : Accumulators Int) : Decidable (Fits s) := inferInstanceAs (Decidable (_ ∧ _))

def div16 (n : Int) : Int := n.tdiv 16

/-- The body of the loop with its four variables of 32 bits: no value where one overflows. -/
def accumulate32 (table capture : Nat → Int × Int) (s : Accumulators Int) (i : Nat) :
    Option (Accumulators Int) :=
  let s := accumulate div16 table capture s i
  if Fits s then some s else none

def bufferSums32 (table : Nat → Int × Int) (count : Nat) (capture : Nat → Int16 × Int16) :
    Option (Accumulators Int) :=
  (List.range count).foldlM
    (accumulate32 table fun i => ((capture i).1.toInt, (capture i).2.toInt)) ⟨0, 0, 0, 0⟩

noncomputable def dspTable (offset : Nat) : Nat → Int × Int :=
  generateDspTable sincosTurns (fun s => truncate (s * 32700)) (offset : ℝ)

end Code

/-- Whatever is sampled, the sums of a buffer are the sums of the truncated products. -/
def SumsExact (table : Nat → Int × Int) (count : Nat) : Prop :=
  ∀ capture : Nat → Int16 × Int16,
    bufferSums32 table count capture =
      some ⟨∑ i ∈ Finset.range count, div16 ((capture i).2.toInt * (table i).1),
        ∑ i ∈ Finset.range count, div16 ((capture i).2.toInt * (table i).2),
        ∑ i ∈ Finset.range count, div16 ((capture i).1.toInt * (table i).1),
        ∑ i ∈ Finset.range count, div16 ((capture i).1.toInt * (table i).2)⟩

def largest (t : Int) : Int := if 0 ≤ t then div16 (32767 * t) else div16 (-32768 * t)

def smallest (t : Int) : Int := if 0 ≤ t then div16 (-32768 * t) else div16 (32767 * t)

def WorstFits (t : Nat → Int) (count : Nat) : Prop :=
  ∑ i ∈ Finset.range count, largest (t i) < 2 ^ 31 ∧
    -2 ^ 31 ≤ ∑ i ∈ Finset.range count, smallest (t i)

section Bounds

theorem div16_eq (n : Int) : div16 n = if 0 ≤ n then n / 16 else -(-n / 16) := by
  unfold div16
  split_ifs with hn
  · exact Int.tdiv_eq_ediv_of_nonneg hn
  · rw [← Int.tdiv_eq_ediv_of_nonneg (by omega), Int.neg_tdiv, neg_neg]

theorem div16_mono {m n : Int} (h : m ≤ n) : div16 m ≤ div16 n := by
  rw [div16_eq, div16_eq]
  split_ifs <;> omega

theorem largest_nonneg (t : Int) : 0 ≤ largest t := by
  unfold largest
  rw [div16_eq, div16_eq]
  split_ifs <;> omega

theorem smallest_nonpos (t : Int) : smallest t ≤ 0 := by
  unfold smallest
  rw [div16_eq, div16_eq]
  split_ifs <;> omega

theorem product_le (x : Int16) (t : Int) : div16 (x.toInt * t) ≤ largest t := by
  have hlo := x.le_toInt
  have hhi := x.toInt_lt
  unfold largest
  split_ifs with ht
  · exact div16_mono (mul_le_mul_of_nonneg_right (by omega) ht)
  · exact div16_mono (mul_le_mul_of_nonpos_right (by omega) (by omega))

theorem le_product (x : Int16) (t : Int) : smallest t ≤ div16 (x.toInt * t) := by
  have hlo := x.le_toInt
  have hhi := x.toInt_lt
  unfold smallest
  split_ifs with ht
  · exact div16_mono (mul_le_mul_of_nonneg_right (by omega) ht)
  · exact div16_mono (mul_le_mul_of_nonpos_right (by omega) (by omega))

/-- The sample that gives the largest product, and the one that gives the smallest. -/
def towards (t : Int) : Int16 := if 0 ≤ t then 32767 else -32768

def away (t : Int) : Int16 := if 0 ≤ t then -32768 else 32767

theorem product_towards (t : Int) : div16 ((towards t).toInt * t) = largest t := by
  unfold towards largest
  split_ifs <;> rfl

theorem product_away (t : Int) : div16 ((away t).toInt * t) = smallest t := by
  unfold away smallest
  split_ifs <;> rfl

theorem sum_le_largest (t : Nat → Int) (x : Nat → Int16) {m n : Nat} (h : m ≤ n) :
    ∑ i ∈ Finset.range m, div16 ((x i).toInt * t i) ≤ ∑ i ∈ Finset.range n, largest (t i) :=
  calc ∑ i ∈ Finset.range m, div16 ((x i).toInt * t i)
      ≤ ∑ i ∈ Finset.range m, largest (t i) := Finset.sum_le_sum fun _ _ => product_le _ _
    _ ≤ ∑ i ∈ Finset.range n, largest (t i) :=
        Finset.sum_le_sum_of_subset_of_nonneg (Finset.range_mono h)
          fun _ _ _ => largest_nonneg _

theorem smallest_le_sum (t : Nat → Int) (x : Nat → Int16) {m n : Nat} (h : m ≤ n) :
    ∑ i ∈ Finset.range n, smallest (t i) ≤ ∑ i ∈ Finset.range m, div16 ((x i).toInt * t i) := by
  have hmore : ∑ i ∈ Finset.range m, -smallest (t i) ≤ ∑ i ∈ Finset.range n, -smallest (t i) :=
    Finset.sum_le_sum_of_subset_of_nonneg (Finset.range_mono h)
      fun i _ _ => neg_nonneg.mpr (smallest_nonpos (t i))
  have hterm : ∑ i ∈ Finset.range m, smallest (t i) ≤
      ∑ i ∈ Finset.range m, div16 ((x i).toInt * t i) :=
    Finset.sum_le_sum fun _ _ => le_product _ _
  rw [Finset.sum_neg_distrib, Finset.sum_neg_distrib] at hmore
  omega

theorem fits_of_worst {t : Nat → Int} {n : Nat} (h : WorstFits t n) (x : Nat → Int16) {m : Nat}
    (hm : m ≤ n) : FitsInt32 (∑ i ∈ Finset.range m, div16 ((x i).toInt * t i)) :=
  ⟨h.2.trans (smallest_le_sum t x hm), (sum_le_largest t x hm).trans_lt h.1⟩

end Bounds

section Law

def partialSums (table : Nat → Int × Int) (capture : Nat → Int16 × Int16) (n : Nat) :
    Accumulators Int :=
  ⟨∑ i ∈ Finset.range n, div16 ((capture i).2.toInt * (table i).1),
    ∑ i ∈ Finset.range n, div16 ((capture i).2.toInt * (table i).2),
    ∑ i ∈ Finset.range n, div16 ((capture i).1.toInt * (table i).1),
    ∑ i ∈ Finset.range n, div16 ((capture i).1.toInt * (table i).2)⟩

theorem accumulate_partialSums (table : Nat → Int × Int) (capture : Nat → Int16 × Int16)
    (n : Nat) :
    accumulate div16 table (fun i => ((capture i).1.toInt, (capture i).2.toInt))
      (partialSums table capture n) n = partialSums table capture (n + 1) := by
  simp only [accumulate, partialSums, Finset.sum_range_succ]

/-- The loop has a value exactly when all partial sums fit, and then it is their sum. -/
theorem bufferSums32_eq_iff (table : Nat → Int × Int) (capture : Nat → Int16 × Int16)
    (count : Nat) (s : Accumulators Int) :
    bufferSums32 table count capture = some s ↔
      s = partialSums table capture count ∧ ∀ m ≤ count, Fits (partialSums table capture m) := by
  induction count generalizing s with
  | zero =>
    constructor
    · intro h
      refine ⟨(Option.some.inj h).symm, fun m hm => ?_⟩
      obtain rfl := Nat.le_zero.mp hm
      simp [Fits, FitsInt32, partialSums]
    · intro ⟨h, _⟩
      rw [h]
      rfl
  | succ n ih =>
    have hsplit : bufferSums32 table (n + 1) capture =
        (bufferSums32 table n capture).bind fun s =>
          accumulate32 table (fun i => ((capture i).1.toInt, (capture i).2.toInt)) s n := by
      rw [bufferSums32, List.range_succ, List.foldlM_append]
      simp only [List.foldlM_cons, List.foldlM_nil, bind_pure]
      rfl
    rw [hsplit, Option.bind_eq_some_iff]
    constructor
    · intro ⟨u, hu, hs⟩
      obtain ⟨rfl, hfits⟩ := (ih u).mp hu
      rw [accumulate32, accumulate_partialSums] at hs
      split_ifs at hs with hlast
      refine ⟨(Option.some.inj hs).symm, fun m hm => ?_⟩
      obtain hm | rfl := Nat.le_succ_iff.mp hm
      · exact hfits m hm
      · exact hlast
    · intro ⟨hs, hfits⟩
      refine ⟨partialSums table capture n,
        (ih _).mpr ⟨rfl, fun m hm => hfits m (by omega)⟩, ?_⟩
      rw [accumulate32, accumulate_partialSums, if_pos (hfits (n + 1) le_rfl), hs]

theorem sumsExact_iff_worstFits (table : Nat → Int × Int) (count : Nat) :
    SumsExact table count ↔
      WorstFits (fun i => (table i).1) count ∧ WorstFits (fun i => (table i).2) count := by
  constructor
  · intro h
    have hfits : ∀ capture, Fits (partialSums table capture count) := fun capture =>
      ((bufferSums32_eq_iff table capture count _).mp (h capture)).2 count le_rfl
    -- the sine column is met by the first input of a pair, the cosine column by the second one
    have htowards := hfits fun i => (towards (table i).1, towards (table i).2)
    have haway := hfits fun i => (away (table i).1, away (table i).2)
    simp only [Fits, partialSums, product_towards] at htowards
    simp only [Fits, partialSums, product_away] at haway
    exact ⟨⟨htowards.2.1.2, haway.2.1.1⟩, ⟨htowards.1.2.2, haway.1.2.1⟩⟩
  · intro ⟨hsin, hcos⟩ capture
    refine (bufferSums32_eq_iff table capture count _).mpr ⟨rfl, fun m hm => ?_⟩
    exact ⟨⟨fits_of_worst hsin _ hm, fits_of_worst hcos _ hm⟩, fits_of_worst hsin _ hm,
      fits_of_worst hcos _ hm⟩

end Law

section Multiples

theorem largest_le (t : Int) : largest t ≤ 2048 * |t| := by
  have hpos := le_abs_self t
  have hneg := neg_le_abs t
  unfold largest
  rw [div16_eq, div16_eq]
  split_ifs <;> omega

theorem le_smallest (t : Int) : -(2048 * |t|) ≤ smallest t := by
  have hpos := le_abs_self t
  have hneg := neg_le_abs t
  unfold smallest
  rw [div16_eq, div16_eq]
  split_ifs <;> omega

theorem le_largest {t n : Int} (h : n ≤ |t|) : 32767 * n / 16 ≤ largest t := by
  unfold largest
  rw [div16_eq, div16_eq]
  obtain ⟨habs, ht⟩ | ⟨habs, ht⟩ := abs_cases t
  · rw [habs] at h
    split_ifs <;> omega
  · rw [habs] at h
    split_ifs <;> omega

theorem worstFits_of_abs_sum {t : Nat → Int} {n : Nat}
    (h : ∑ i ∈ Finset.range n, |t i| < 2 ^ 20) : WorstFits t n := by
  have hmul : ∑ i ∈ Finset.range n, 2048 * |t i| = 2048 * ∑ i ∈ Finset.range n, |t i| :=
    (Finset.mul_sum _ _ _).symm
  constructor
  · have := Finset.sum_le_sum fun i (_ : i ∈ Finset.range n) => largest_le (t i)
    omega
  · have := Finset.sum_le_sum fun i (_ : i ∈ Finset.range n) => le_smallest (t i)
    rw [Finset.sum_neg_distrib] at this
    omega

theorem sum_sin_mul (x y : ℝ) (n : Nat) :
    2 * Real.sin y * ∑ j ∈ Finset.range n, Real.sin (x + 2 * y * j) =
      Real.cos (x - y) - Real.cos (x + 2 * y * n - y) := by
  induction n with
  | zero => simp
  | succ n ih =>
    have hnext : x + 2 * y * (n + 1 : Nat) - y = x + 2 * y * n + y := by
      push_cast
      ring
    rw [Finset.sum_range_succ, mul_add, ih, hnext, Real.cos_sub (x + 2 * y * n) y,
      Real.cos_add (x + 2 * y * n) y]
    ring

theorem le_sin_of_le {step : Nat} (h : step ≤ 16) :
    (step : ℝ) / 32 ≤ Real.sin (Real.pi * step / 96) := by
  have hb : (step : ℝ) / 16 ≤ 1 := by
    rw [div_le_one (by norm_num)]
    exact_mod_cast h
  have hsixth : Real.pi / 6 ∈ Set.Icc 0 Real.pi := by
    constructor <;> linarith [Real.pi_pos]
  have hchord := strictConcaveOn_sin_Icc.concaveOn.2 ⟨le_rfl, Real.pi_pos.le⟩ hsixth
    (sub_nonneg.mpr hb) (by positivity) (sub_add_cancel 1 ((step : ℝ) / 16))
  simp only [smul_eq_mul, Real.sin_zero, mul_zero, zero_add, Real.sin_pi_div_six] at hchord
  calc (step : ℝ) / 32 = step / 16 * (1 / 2) := by ring
    _ ≤ Real.sin (step / 16 * (Real.pi / 6)) := hchord
    _ = Real.sin (Real.pi * step / 96) := by
        congr 1
        ring

theorem sum_sin_le {step : Nat} (start : Nat) (hdvd : step ∣ 48) (h : step ≤ 16) :
    step * ∑ j ∈ Finset.range (48 / step), Real.sin (Real.pi * (start + step * j : Nat) / 48) ≤
      32 := by
  have hsum := sum_sin_mul (Real.pi * start / 48) (Real.pi * step / 96) (48 / step)
  have hterm : ∀ j : Nat, Real.pi * start / 48 + 2 * (Real.pi * step / 96) * j =
      Real.pi * (start + step * j : Nat) / 48 := by
    intro j
    push_cast
    ring
  have hwhole : ((step * (48 / step) : Nat) : ℝ) = 48 := by
    rw [Nat.mul_div_cancel' hdvd]
    norm_num
  have hturn : Real.pi * start / 48 + 2 * (Real.pi * step / 96) * (48 / step : Nat) -
      Real.pi * step / 96 = Real.pi * start / 48 - Real.pi * step / 96 + Real.pi := by
    push_cast at hwhole
    linear_combination Real.pi / 48 * hwhole
  rw [hturn, Real.cos_add_pi] at hsum
  simp only [hterm] at hsum
  have hcos := Real.cos_le_one (Real.pi * start / 48 - Real.pi * step / 96)
  have hsin := le_sin_of_le h
  set total := ∑ j ∈ Finset.range (48 / step),
    Real.sin (Real.pi * (start + step * j : Nat) / 48)
  obtain hneg | hpos := le_total total 0
  · have := mul_nonneg (Nat.cast_nonneg (α := ℝ) step) (neg_nonneg.mpr hneg)
    linarith
  · have := mul_le_mul_of_nonneg_right hsin hpos
    linarith

/-- The places of the half turn that the phases of a buffer meet, with their numbers. -/
def places (m shift : Nat) : List Nat :=
  (List.range (48 / Nat.gcd (2 * m) 48)).flatMap fun j =>
    List.replicate (Nat.gcd (2 * m) 48) ((m + shift) % Nat.gcd (2 * m) 48 +
      Nat.gcd (2 * m) 48 * j)

theorem phases_perm : ∀ m ∈ List.range 25, ∀ shift ∈ [0, 24],
    ((List.range 48).map fun i => (m * (2 * i + 1) + shift) % 48).Perm (places m shift) := by
  decide +kernel

theorem abs_sin_mod (k : Nat) :
    |Real.sin (Real.pi * k / 48)| = Real.sin (Real.pi * (k % 48 : Nat) / 48) := by
  have hsplit : Real.pi * k / 48 = Real.pi * (k % 48 : Nat) / 48 + (k / 48 : Nat) * Real.pi := by
    have := congrArg (Nat.cast (R := ℝ)) (Nat.mod_add_div k 48)
    push_cast at this ⊢
    linear_combination -(Real.pi / 48) * this
  have hlt : ((k % 48 : Nat) : ℝ) ≤ 48 := by exact_mod_cast (Nat.mod_lt k (by norm_num)).le
  have hpi := Real.pi_pos
  have hnonneg : 0 ≤ Real.sin (Real.pi * (k % 48 : Nat) / 48) := by
    refine Real.sin_nonneg_of_nonneg_of_le_pi (by positivity) ?_
    rw [div_le_iff₀ (by norm_num)]
    exact mul_le_mul_of_nonneg_left hlt hpi.le
  rw [hsplit, Real.sin_add_nat_mul_pi, abs_mul, abs_pow, abs_neg, abs_one, one_pow, one_mul,
    abs_of_nonneg hnonneg]

theorem sum_places (m shift : Nat) (f : Nat → ℝ) :
    ((places m shift).map f).sum = Nat.gcd (2 * m) 48 *
      ∑ j ∈ Finset.range (48 / Nat.gcd (2 * m) 48),
        f ((m + shift) % Nat.gcd (2 * m) 48 + Nat.gcd (2 * m) 48 * j) := by
  rw [places, List.map_flatMap, List.flatMap_def, List.sum_flatten, List.map_map, Finset.mul_sum]
  refine congrArg List.sum (List.map_congr_left fun j _ => ?_)
  simp

theorem sum_abs_sin_le {m shift : Nat} (hm : m ≤ 24) (hshift : shift ∈ [0, 24])
    (h : Nat.gcd (2 * m) 48 ≤ 16) :
    ∑ i ∈ Finset.range 48, |Real.sin (Real.pi * (m * (2 * i + 1) + shift : Nat) / 48)| ≤ 32 := by
  have hperm := (phases_perm m (List.mem_range.mpr (by omega)) shift hshift).map
    fun k : Nat => Real.sin (Real.pi * k / 48)
  have hsum := hperm.sum_eq
  have hlist : ∑ i ∈ Finset.range 48, |Real.sin (Real.pi * (m * (2 * i + 1) + shift : Nat) / 48)| =
      (((List.range 48).map fun i => (m * (2 * i + 1) + shift) % 48).map
        fun k : Nat => Real.sin (Real.pi * k / 48)).sum := by
    simp only [abs_sin_mod, List.map_map]
    rfl
  rw [hlist, hsum, sum_places]
  exact sum_sin_le _ (Nat.gcd_dvd_right _ _) h

theorem dspTable_multiple (m i : Nat) :
    dspTable (4000 * m) i =
      (truncate (Real.sin (Real.pi * (m * (2 * i + 1) + 0 : Nat) / 48) * 32700),
        truncate (Real.sin (Real.pi * (m * (2 * i + 1) + 24 : Nat) / 48) * 32700)) := by
  have hangle : 2 * Real.pi * (((4000 * m : Nat) : ℝ) / audioAdcFreq * (i + 1 / 2)) =
      Real.pi * (m * (2 * i + 1) + 0 : Nat) / 48 := by
    rw [audioAdcFreq]
    push_cast
    ring
  have hquarter : Real.pi * (m * (2 * i + 1) + 24 : Nat) / 48 =
      Real.pi * (m * (2 * i + 1) + 0 : Nat) / 48 + Real.pi / 2 := by
    push_cast
    ring
  rw [dspTable, generateDspTable]
  simp only [phase_eq, sincosTurns]
  rw [hangle, hquarter, Real.sin_add_pi_div_two]

theorem worstFits_column {m shift : Nat} (hm : m ≤ 24) (hshift : shift ∈ [0, 24])
    (h : Nat.gcd (2 * m) 48 ≤ 16) :
    WorstFits (fun i => truncate
      (Real.sin (Real.pi * (m * (2 * i + 1) + shift : Nat) / 48) * 32700)) 48 := by
  apply worstFits_of_abs_sum
  have hsum := sum_abs_sin_le hm hshift h
  have hreal : ((∑ i ∈ Finset.range 48, |truncate
      (Real.sin (Real.pi * (m * (2 * i + 1) + shift : Nat) / 48) * 32700)| : Int) : ℝ) ≤
      32 * 32700 := by
    rw [Int.cast_sum]
    calc ∑ i ∈ Finset.range 48, ((|truncate
          (Real.sin (Real.pi * (m * (2 * i + 1) + shift : Nat) / 48) * 32700)| : Int) : ℝ)
        ≤ ∑ i ∈ Finset.range 48,
          |Real.sin (Real.pi * (m * (2 * i + 1) + shift : Nat) / 48)| * 32700 := by
          refine Finset.sum_le_sum fun i _ => ?_
          rw [Int.cast_abs]
          refine (abs_truncate_le _).trans_eq ?_
          rw [abs_mul, abs_of_pos (by norm_num : (0 : ℝ) < 32700)]
      _ ≤ 32 * 32700 := by
          rw [← Finset.sum_mul]
          exact mul_le_mul_of_nonneg_right hsum (by norm_num)
  have hint : ∑ i ∈ Finset.range 48, |truncate
      (Real.sin (Real.pi * (m * (2 * i + 1) + shift : Nat) / 48) * 32700)| ≤ 32 * 32700 := by
    exact_mod_cast hreal
  omega

theorem le_abs_entry {m : Nat} (hm : m = 12 ∨ m = 24) (i : Nat) :
    23122 ≤ |truncate (Real.sin (Real.pi * (m * (2 * i + 1) + 0 : Nat) / 48) * 32700)| := by
  have hcos : Real.cos (2 * (Real.pi * (m * (2 * i + 1) + 0 : Nat) / 48)) ≤ 0 := by
    obtain rfl | rfl := hm
    · have hangle : 2 * (Real.pi * (12 * (2 * i + 1) + 0 : Nat) / 48) =
          Real.pi / 2 + i * Real.pi := by
        push_cast
        ring
      rw [hangle, Real.cos_add_nat_mul_pi, Real.cos_pi_div_two, mul_zero]
    · have hangle : 2 * (Real.pi * (24 * (2 * i + 1) + 0 : Nat) / 48) =
          Real.pi + i * (2 * Real.pi) := by
        push_cast
        ring
      rw [hangle, Real.cos_add_nat_mul_two_pi, Real.cos_pi]
      norm_num
  have hsq := Real.sin_sq_eq_half_sub (Real.pi * (m * (2 * i + 1) + 0 : Nat) / 48)
  refine le_abs_truncate (by norm_num) ?_
  refine (le_abs_self _).trans (sq_le_sq.mp ?_)
  rw [mul_pow, hsq, Int.cast_ofNat]
  linarith

theorem not_worstFits {m : Nat} (hm : m = 12 ∨ m = 24) :
    ¬ WorstFits (fun i => (dspTable (4000 * m) i).1) 48 := by
  intro h
  have hle : ∑ _i ∈ Finset.range 48, (32767 * 23122 / 16 : Int) ≤
      ∑ i ∈ Finset.range 48, largest (dspTable (4000 * m) i).1 := by
    refine Finset.sum_le_sum fun i _ => ?_
    rw [dspTable_multiple]
    exact le_largest (le_abs_entry hm i)
  have hlt : ∑ i ∈ Finset.range 48, largest (dspTable (4000 * m) i).1 < 2 ^ 31 := h.1
  rw [Finset.sum_const, Finset.card_range] at hle
  norm_num at hle
  omega

theorem gcd_le_iff {m : Nat} (hpos : 1 ≤ m) (hm : m ≤ 24) :
    Nat.gcd (2 * m) 48 ≤ 16 ↔ m ≠ 12 ∧ m ≠ 24 := by
  have h : ∀ m ∈ List.range' 1 24, Nat.gcd (2 * m) 48 ≤ 16 ↔ m ≠ 12 ∧ m ≠ 24 := by decide
  exact h m (List.mem_range'_1.mpr (by omega))

/-- Among the multiples of the step of the offset, up to half of the rate, two overflow. -/
theorem sumsExact_multiple_iff {m : Nat} (hpos : 1 ≤ m) (hm : m ≤ 24) :
    SumsExact (dspTable (4000 * m)) 48 ↔ m ≠ 12 ∧ m ≠ 24 := by
  rw [sumsExact_iff_worstFits]
  constructor
  · intro ⟨hsin, _⟩
    constructor
    · exact fun h => not_worstFits (Or.inl h) hsin
    · exact fun h => not_worstFits (Or.inr h) hsin
  · intro h
    have hgcd := (gcd_le_iff hpos hm).mpr h
    simp only [dspTable_multiple]
    exact ⟨worstFits_column hm (by decide) hgcd, worstFits_column hm (by decide) hgcd⟩

end Multiples

/-- The sums of a buffer are exact for every buffer when the worst one fits, and only then; for the
multiples of the step that is for every one but a quarter and a half of the rate. -/
theorem sums_exact_iff (table : Nat → Int × Int) (count : Nat) :
    (SumsExact table count ↔
      WorstFits (fun i => (table i).1) count ∧ WorstFits (fun i => (table i).2) count) ∧
    ∀ m ∈ List.range' 1 24, SumsExact (dspTable (4000 * m)) 48 ↔ m ≠ 12 ∧ m ≠ 24 := by
  refine ⟨sumsExact_iff_worstFits table count, fun m hm => ?_⟩
  have hrange := List.mem_range'_1.mp hm
  exact sumsExact_multiple_iff hrange.1 (by omega)

/-- A quarter of the rate is an offset that the shell accepts. -/
theorem sums_overflow : ¬ SumsExact (dspTable 48000) 48 := by
  intro h
  have hworst := (sumsExact_iff_worstFits _ _).mp h
  exact not_worstFits (m := 12) (Or.inl rfl) hworst.1

end NanoVNA.DspOverflow
