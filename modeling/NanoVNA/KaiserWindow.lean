import Mathlib.Algebra.BigOperators.Intervals
import Mathlib.Analysis.SpecialFunctions.Exponential
import Mathlib.Tactic.FieldSimp
import Mathlib.Tactic.GCongr
import Mathlib.Tactic.IntervalCases
import Mathlib.Tactic.NormNum
import Mathlib.Tactic.Positivity
import NanoVNA.Numerals

namespace NanoVNA.KaiserWindow

section Code

variable {K : Type} [Field K]

def besseli0K : List ℚ :=
  [2.5000000000000000000000000000000e-01, 2.7777777777777777777777777777778e-02,
    1.7361111111111111111111111111111e-03, 6.9444444444444444444444444444444e-05,
    1.9290123456790123456790123456790e-06, 3.9367598891408415217939027462837e-08,
    6.1511873267825648778029730410683e-10, 7.5940584281266233059295963469979e-12,
    7.5940584281266233059295963469979e-14, 6.2760813455591928158178482206594e-16,
    4.3583898233049950102901723754579e-18]

/-- The body of the loop, on `term` and `ret`. -/
def besselStep (z : K) (s : K × K) (c : ℚ) : K × K := (s.1 * z, s.2 + s.1 * z * c)

/-- The counter of the loop goes down and the table is read upwards. -/
def besselI0Ext (z : K) : K := (besseli0K.foldl (besselStep z) (z, 1 + z)).2

def kaiserWindowExt (k n : UInt32) (beta : UInt16) : K :=
  if beta = 0 then 1
  else
    let n := n - 1
    let k := k * (n - k) * beta.toUInt32 * beta.toUInt32
    let n := n * n
    besselI0Ext ((k.toNat : K) / n.toNat)

end Code

section Series

/-- A term of the power series of the modified Bessel function of order zero, at `2 * √z`. -/
noncomputable def term (z : ℝ) (j : Nat) : ℝ := z ^ j / (j.factorial : ℝ) ^ 2

noncomputable def besselI0 (x : ℝ) : ℝ := tsum (term (x ^ 2 / 4))

theorem term_succ (z : ℝ) (j : Nat) : term z (j + 1) = term z j * (z / ((j : ℝ) + 1) ^ 2) := by
  rw [term, term, Nat.factorial_succ, pow_succ, Nat.cast_mul, mul_pow, div_mul_div_comm]
  push_cast
  rw [mul_comm (((j : ℝ) + 1) ^ 2)]

theorem term_nonneg {z : ℝ} (hz : 0 ≤ z) (j : Nat) : 0 ≤ term z j := by
  unfold term
  positivity

theorem summable_term {z : ℝ} (hz : 0 ≤ z) : Summable (term z) := by
  refine Summable.of_nonneg_of_le (term_nonneg hz) (fun j => ?_)
    (Real.summable_pow_div_factorial z)
  have hone : (1 : ℝ) ≤ (j.factorial : ℝ) := by exact_mod_cast j.factorial_pos
  unfold term
  gcongr
  exact le_self_pow₀ hone two_ne_zero

/-- Past the thirteenth the terms fall at least as fast as a geometric series. -/
theorem term_tail_le {z : ℝ} (hz : 0 ≤ z) (i : Nat) :
    term z (i + 13) ≤ term z 13 * (z / 196) ^ i := by
  induction i with
  | zero => simp
  | succ i ih =>
    have hden : (196 : ℝ) ≤ ((i + 13 : Nat) + 1 : ℝ) ^ 2 := by
      push_cast
      nlinarith [(Nat.cast_nonneg i : (0 : ℝ) ≤ i)]
    have hstep : z / ((i + 13 : Nat) + 1 : ℝ) ^ 2 ≤ z / 196 := by gcongr
    rw [Nat.add_right_comm, term_succ, pow_succ (z / 196), ← mul_assoc]
    exact mul_le_mul ih hstep (by positivity) (mul_nonneg (term_nonneg hz 13) (by positivity))

theorem sum_tail_le {z : ℝ} (hz : 0 ≤ z) (hlt : z < 196) :
    (tsum fun i => term z (i + 13)) ≤ term z 13 * (1 - z / 196)⁻¹ := by
  have hratio : z / 196 < 1 := by rw [div_lt_one (by norm_num)]; exact hlt
  have hgeom := summable_geometric_of_lt_one (div_nonneg hz (by norm_num)) hratio
  calc (tsum fun i => term z (i + 13)) ≤ tsum fun i => term z 13 * (z / 196) ^ i :=
        ((summable_nat_add_iff 13).mpr (summable_term hz)).tsum_le_tsum (term_tail_le hz)
          (hgeom.mul_left _)
    _ = term z 13 * (1 - z / 196)⁻¹ := by
        rw [tsum_mul_left, tsum_geometric_of_lt_one (div_nonneg hz (by norm_num)) hratio]

theorem term_mul_term_le {z z₀ : ℝ} (hz : 0 ≤ z) (hle : z ≤ z₀) {i j : Nat} (hij : i ≤ j) :
    term z j * term z₀ i ≤ term z i * term z₀ j := by
  obtain ⟨d, rfl⟩ := Nat.exists_eq_add_of_le hij
  have hz₀ : 0 ≤ z₀ := hz.trans hle
  have hpow : z ^ (i + d) * z₀ ^ i ≤ z ^ i * z₀ ^ (i + d) := by
    calc z ^ (i + d) * z₀ ^ i = z ^ i * z₀ ^ i * z ^ d := by ring
      _ ≤ z ^ i * z₀ ^ i * z₀ ^ d := by gcongr
      _ = z ^ i * z₀ ^ (i + d) := by ring
  unfold term
  rw [div_mul_div_comm, div_mul_div_comm, mul_comm ((i.factorial : ℝ) ^ 2)]
  gcongr

theorem term_mul_sum_le {z z₀ : ℝ} (hz : 0 ≤ z) (hle : z ≤ z₀) (j : Nat) :
    term z j * ∑ i ∈ Finset.range j, term z₀ i ≤ (∑ i ∈ Finset.range j, term z i) * term z₀ j := by
  rw [Finset.mul_sum, Finset.sum_mul]
  exact Finset.sum_le_sum fun i hi => term_mul_term_le hz hle (Finset.mem_range.mp hi).le

end Series

section Accuracy

/-- The coefficient of a power in what `bessel_i0_ext` sums. -/
def coefficient (j : Nat) : ℚ := ((1 : ℚ) :: 1 :: besseli0K).getD j 0

theorem foldl_besselStep {K : Type} [Field K] (z : K) (cs : List ℚ) (t r : K) :
    (cs.foldl (besselStep z) (t, r)).2 =
      r + ∑ i ∈ Finset.range cs.length, (cs.getD i 0 : K) * (t * z ^ (i + 1)) := by
  induction cs generalizing t r with
  | nil => simp
  | cons c cs ih =>
    rw [List.foldl_cons, besselStep, ih, List.length_cons, Finset.sum_range_succ']
    simp only [List.getD_cons_succ, List.getD_cons_zero]
    have hsum : ∑ i ∈ Finset.range cs.length, (cs.getD i 0 : K) * (t * z * z ^ (i + 1)) =
        ∑ i ∈ Finset.range cs.length, (cs.getD i 0 : K) * (t * z ^ (i + 1 + 1)) :=
      Finset.sum_congr rfl fun i _ => by ring
    rw [hsum]
    ring

theorem besselI0Ext_eq (z : ℝ) :
    besselI0Ext z = ∑ j ∈ Finset.range 13, (coefficient j : ℝ) * z ^ j := by
  rw [besselI0Ext, foldl_besselStep, Finset.sum_range_succ', Finset.sum_range_succ']
  have hsum : ∑ i ∈ Finset.range besseli0K.length, (besseli0K.getD i 0 : ℝ) * (z * z ^ (i + 1)) =
      ∑ i ∈ Finset.range 11, (coefficient (i + 1 + 1) : ℝ) * z ^ (i + 1 + 1) :=
    Finset.sum_congr rfl fun i _ => by
      rw [coefficient, List.getD_cons_succ, List.getD_cons_succ]
      ring
  rw [hsum]
  simp only [coefficient, List.getD_cons_succ, List.getD_cons_zero]
  push_cast
  ring

/-- The eleventh coefficient has one digit too many; the others are off by less. -/
theorem coefficient_close {j : Nat} (hj : j < 13) :
    |coefficient j * (j.factorial : ℚ) ^ 2 - 1| ≤ 1 / 10 ^ 18 := by
  interval_cases j <;>
    norm_num [coefficient, besseli0K, Nat.factorial, abs_le]

theorem besselI0Ext_near {z : ℝ} (hz : 0 ≤ z) :
    |besselI0Ext z - ∑ j ∈ Finset.range 13, term z j| ≤
      1 / 10 ^ 18 * ∑ j ∈ Finset.range 13, term z j := by
  rw [besselI0Ext_eq, ← Finset.sum_sub_distrib, Finset.mul_sum]
  refine (Finset.abs_sum_le_sum_abs _ _).trans (Finset.sum_le_sum fun j hj => ?_)
  have hclose := coefficient_close (Finset.mem_range.mp hj)
  have hcast : |(coefficient j : ℝ) * (j.factorial : ℝ) ^ 2 - 1| ≤ 1 / 10 ^ 18 := by
    have hreal := (Rat.cast_le (K := ℝ)).mpr hclose
    push_cast at hreal
    exact hreal
  have hfac : (j.factorial : ℝ) ^ 2 ≠ 0 := by positivity
  have hsplit : (coefficient j : ℝ) * z ^ j - term z j =
      ((coefficient j : ℝ) * (j.factorial : ℝ) ^ 2 - 1) * term z j := by
    unfold term
    field_simp
  rw [hsplit, abs_mul, abs_of_nonneg (term_nonneg hz j)]
  exact mul_le_mul_of_nonneg_right hcast (term_nonneg hz j)

/-- Up to `169 / 4`, which is the argument at the middle of the widest window. -/
theorem sum_tail_small {z : ℝ} (hz : 0 ≤ z) (hle : z ≤ 169 / 4) :
    (tsum fun i => term z (i + 13)) ≤ 19 / 20000 * ∑ j ∈ Finset.range 13, term z j := by
  have hworst : term (169 / 4) 13 * (1 - 169 / 4 / 196)⁻¹ ≤
      19 / 20000 * ∑ j ∈ Finset.range 13, term (169 / 4) j := by
    norm_num [term, Finset.sum_range_succ, Nat.factorial]
  have hsum : 0 < ∑ j ∈ Finset.range 13, term (169 / 4) j := by
    norm_num [term, Finset.sum_range_succ, Nat.factorial]
  have hnonneg : 0 ≤ ∑ j ∈ Finset.range 13, term z j :=
    Finset.sum_nonneg fun j _ => term_nonneg hz j
  have hinv : (1 - z / 196)⁻¹ ≤ (1 - 169 / 4 / 196 : ℝ)⁻¹ :=
    inv_anti₀ (by norm_num) (by linarith)
  have hpos : (0 : ℝ) ≤ (1 - 169 / 4 / 196)⁻¹ := by norm_num
  refine (sum_tail_le hz (by linarith)).trans (le_of_mul_le_mul_right ?_ hsum)
  calc term z 13 * (1 - z / 196)⁻¹ * ∑ j ∈ Finset.range 13, term (169 / 4) j
      ≤ term z 13 * (1 - 169 / 4 / 196)⁻¹ * ∑ j ∈ Finset.range 13, term (169 / 4) j := by
        gcongr
        exact term_nonneg hz 13
    _ = term z 13 * (∑ j ∈ Finset.range 13, term (169 / 4) j) * (1 - 169 / 4 / 196)⁻¹ := by ring
    _ ≤ (∑ j ∈ Finset.range 13, term z j) * term (169 / 4) 13 * (1 - 169 / 4 / 196)⁻¹ :=
        mul_le_mul_of_nonneg_right (term_mul_sum_le hz hle 13) hpos
    _ = (∑ j ∈ Finset.range 13, term z j) * (term (169 / 4) 13 * (1 - 169 / 4 / 196)⁻¹) := by ring
    _ ≤ (∑ j ∈ Finset.range 13, term z j) *
          (19 / 20000 * ∑ j ∈ Finset.range 13, term (169 / 4) j) :=
        mul_le_mul_of_nonneg_left hworst hnonneg
    _ = 19 / 20000 * (∑ j ∈ Finset.range 13, term z j) *
          ∑ j ∈ Finset.range 13, term (169 / 4) j := by ring

theorem besselI0Ext_accurate {z : ℝ} (hz : 0 ≤ z) (hle : z ≤ 169 / 4) :
    |besselI0Ext z - tsum (term z)| ≤ 1 / 1000 * tsum (term z) := by
  have hsplit := (summable_term hz).sum_add_tsum_nat_add 13
  have htail := sum_tail_small hz hle
  have hnear := abs_le.mp (besselI0Ext_near hz)
  have hnonneg : 0 ≤ ∑ j ∈ Finset.range 13, term z j :=
    Finset.sum_nonneg fun j _ => term_nonneg hz j
  have htailNonneg : 0 ≤ tsum fun i => term z (i + 13) := tsum_nonneg fun i => term_nonneg hz _
  rw [← hsplit, abs_le]
  constructor <;> linarith [hnear.1, hnear.2]

end Accuracy

section Window

/-- Where an entry lies between the two ends of a window of `n` entries. -/
noncomputable def position (k n : Nat) : ℝ := (2 * k - ((n : ℝ) - 1)) / ((n : ℝ) - 1)

noncomputable def kaiser (beta : ℝ) (k n : Nat) : ℝ :=
  besselI0 (beta * √(1 - position k n ^ 2))

theorem kaiser_argument {k n : Nat} (hn : 1 < n) (hk : k < n) (beta : ℝ) :
    (beta * √(1 - position k n ^ 2)) ^ 2 / 4 =
      (k : ℝ) * ((n - 1 - k : Nat) : ℝ) * beta * beta / (((n : ℝ) - 1) * ((n : ℝ) - 1)) := by
  have hlast : (n : ℝ) - 1 ≠ 0 := by
    have : (1 : ℝ) < n := by exact_mod_cast hn
    linarith
  have hcast : ((n - 1 - k : Nat) : ℝ) = (n : ℝ) - 1 - k := by
    rw [Nat.cast_sub (by omega), Nat.cast_sub hn.le, Nat.cast_one]
  have hsq : 1 - position k n ^ 2 =
      4 * ((k : ℝ) * ((n - 1 - k : Nat) : ℝ)) / (((n : ℝ) - 1) * ((n : ℝ) - 1)) := by
    rw [hcast, position]
    field_simp
    ring
  have hnonneg : 0 ≤ 1 - position k n ^ 2 := by
    rw [hsq]
    have := mul_self_nonneg ((n : ℝ) - 1)
    positivity
  rw [mul_pow, Real.sq_sqrt hnonneg, hsq]
  field_simp

theorem kaiserWindowExt_exact {K : Type} [Field K] {k n beta : Nat} (hn : n ≤ 4096) (hk : k < n)
    (hbeta : beta ≤ 13) (hpos : beta ≠ 0) :
    (kaiserWindowExt (UInt32.ofNat k) (UInt32.ofNat n) (UInt16.ofNat beta) : K) =
      besselI0Ext (((k * (n - 1 - k) * beta * beta : Nat) : K) / ((n - 1) * (n - 1) : Nat)) := by
  have hlen : (UInt32.ofNat n - 1).toNat = n - 1 := by
    rw [UInt32.toNat_sub_of_le _ _ (by rw [UInt32.le_iff_toNat_le]; simp; omega)]
    simp
    omega
  have hindex : (UInt32.ofNat k).toNat = k := by
    simp
    omega
  have hword : (UInt16.ofNat beta).toUInt32.toNat = beta := by
    simp
    omega
  have hdiff : (UInt32.ofNat n - 1 - UInt32.ofNat k).toNat = n - 1 - k := by
    rw [UInt32.toNat_sub_of_le _ _ (by rw [UInt32.le_iff_toNat_le]; omega), hlen, hindex]
  have harea : k * (n - 1 - k) ≤ 4095 * 4095 := Nat.mul_le_mul (by omega) (by omega)
  have honce : k * (n - 1 - k) * beta ≤ 4095 * 4095 * 13 := Nat.mul_le_mul harea hbeta
  have htwice : k * (n - 1 - k) * beta * beta ≤ 4095 * 4095 * 13 * 13 := Nat.mul_le_mul honce hbeta
  have hsquare : (n - 1) * (n - 1) ≤ 4095 * 4095 := Nat.mul_le_mul (by omega) (by omega)
  have hzero : UInt16.ofNat beta ≠ 0 := by
    intro h
    have := congrArg UInt16.toNat h
    simp at this
    omega
  rw [kaiserWindowExt, if_neg hzero]
  simp only [UInt32.toNat_mul, hlen, hindex, hword, hdiff]
  rw [Nat.mod_eq_of_lt (a := k * (n - 1 - k)) (by omega),
    Nat.mod_eq_of_lt (a := k * (n - 1 - k) * beta) (by omega),
    Nat.mod_eq_of_lt (a := k * (n - 1 - k) * beta * beta) (by omega),
    Nat.mod_eq_of_lt (a := (n - 1) * (n - 1)) (by omega)]

theorem one_le_besselI0Ext {z : ℝ} (hz : 0 ≤ z) : 1 ≤ besselI0Ext z := by
  have hcoefficient : ∀ j < 13, 0 ≤ coefficient j := by
    intro j hj
    interval_cases j <;> norm_num [coefficient, besseli0K]
  rw [besselI0Ext_eq, Finset.sum_range_succ']
  have hfirst : (coefficient 0 : ℝ) * z ^ 0 = 1 := by norm_num [coefficient]
  have hrest : 0 ≤ ∑ j ∈ Finset.range 12, (coefficient (j + 1) : ℝ) * z ^ (j + 1) := by
    refine Finset.sum_nonneg fun j hj => mul_nonneg ?_ (by positivity)
    have hlt := Finset.mem_range.mp hj
    exact_mod_cast hcoefficient (j + 1) (by omega)
  linarith

theorem one_le_kaiserWindowExt (k n : UInt32) (beta : UInt16) :
    1 ≤ (kaiserWindowExt k n beta : ℝ) := by
  unfold kaiserWindowExt
  split_ifs
  · exact le_rfl
  · exact one_le_besselI0Ext (by positivity)

theorem besselI0_zero : besselI0 0 = 1 := by
  rw [besselI0, tsum_eq_single 0 fun j hj => by simp [term, hj]]
  simp [term]

theorem kaiserWindowExt_accurate {k n beta : Nat} (hone : 1 < n) (hn : n ≤ 4096) (hk : k < n)
    (hbeta : beta ≤ 13) :
    |kaiserWindowExt (UInt32.ofNat k) (UInt32.ofNat n) (UInt16.ofNat beta) - kaiser beta k n| ≤
      1 / 1000 * kaiser beta k n := by
  by_cases hzero : beta = 0
  · subst hzero
    have hflat : (kaiserWindowExt (UInt32.ofNat k) (UInt32.ofNat n) (UInt16.ofNat 0) : ℝ) = 1 :=
      if_pos rfl
    norm_num [hflat, kaiser, besselI0_zero]
  have hlast : (0 : ℝ) < (n : ℝ) - 1 := by
    have : (1 : ℝ) < n := by exact_mod_cast hone
    linarith
  have hargument : ((k * (n - 1 - k) * beta * beta : Nat) : ℝ) / ((n - 1) * (n - 1) : Nat) =
      (beta * √(1 - position k n ^ 2)) ^ 2 / 4 := by
    rw [kaiser_argument hone hk]
    push_cast [Nat.cast_sub hone.le]
    rfl
  have hbound : (beta * √(1 - position k n ^ 2)) ^ 2 / 4 ≤ 169 / 4 := by
    have hle : (beta : ℝ) ≤ 13 := by exact_mod_cast hbeta
    have hroot : √(1 - position k n ^ 2) ≤ 1 :=
      Real.sqrt_le_one.mpr (by nlinarith [sq_nonneg (position k n)])
    have hprod : beta * √(1 - position k n ^ 2) ≤ 13 := by
      calc beta * √(1 - position k n ^ 2) ≤ 13 * 1 := by gcongr
        _ = 13 := mul_one 13
    have hnonneg : 0 ≤ beta * √(1 - position k n ^ 2) := by positivity
    nlinarith
  rw [kaiserWindowExt_exact hn hk hbeta hzero, hargument, kaiser, besselI0]
  exact besselI0Ext_accurate (by positivity) hbound

theorem kaiserWindowExt_accurate_hundred :
    |kaiserWindowExt (UInt32.ofNat 100) (UInt32.ofNat 202) (UInt16.ofNat 13) -
        kaiser (13 : Nat) 100 202| ≤
      1 / 1000 * kaiser (13 : Nat) 100 202 :=
  kaiserWindowExt_accurate (by decide) (by decide) (by decide) (by decide)

end Window

end NanoVNA.KaiserWindow
