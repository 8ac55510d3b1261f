import Mathlib.Analysis.Real.Sqrt
import NanoVNA.BinaryFormat

namespace NanoVNA.VnaSqrt

open NanoVNA.BinaryFormat

/-! ### The square root bit by bit -/

/-- A signed result; `none` is an overflow. -/
def int32 (n : ℤ) : Option ℤ := if -2 ^ 31 ≤ n ∧ n < 2 ^ 31 then some n else none

def toInt32 (n : ℤ) : ℤ := (n + 2 ^ 31) % 2 ^ 32 - 2 ^ 31

structure Digits where
  ix : ℤ
  s : ℤ
  q : ℤ

/-- The body of the loop; `r` is unsigned, and so are the sums with it. -/
def digitStep (r : ℕ) (w : Digits) : Option Digits := do
  let t := toInt32 (w.s + r)
  let w ← if t ≤ w.ix then do
      let ix ← int32 (w.ix - t)
      pure ⟨ix, toInt32 (t + r), toInt32 (w.q + r)⟩
    else pure w
  let ix ← int32 (w.ix + w.ix)
  pure { w with ix }

def digitLoop (r : ℕ) (w : Digits) : Option Digits :=
  if r = 0 then some w
  else do
    let w ← digitStep r w
    digitLoop (r / 2) w
termination_by r

/-- In round to nearest `1.0f - 1e-30f` and `1.0f + 1e-30f` are both `1.0f`: what is added is
`q & 1`. -/
def roundDigits (w : Digits) : Option ℤ :=
  if w.ix ≠ 0 then int32 (w.q + w.q % 2) else some w.q

/-- On bit patterns. -/
def vnaSqrtf (x : ℕ) : Option ℕ :=
  let ix := toInt32 x
  if ix = 0 then some 0
  else do
    let m ← int32 (ix / 2 ^ 23 - 127)
    let ix ← int32 ((ix % 2 ^ 23 + 2 ^ 23) * if m % 2 = 1 then 4 else 2)
    let m := m / 2
    let w ← digitLoop 0x01000000 ⟨ix, 0, 0⟩
    let q ← roundDigits w
    let ix ← int32 (q / 2 + 0x3f000000)
    let shifted ← int32 (m * 2 ^ 23)
    let ix ← int32 (ix + shifted)
    some (ix % 2 ^ 32).toNat

noncomputable def single (x : ℕ) : ℝ := patternValue ℝ 23 (-149) x

def oneBits : ℕ := 0x3f800000

theorem single_eq (significand : ℕ) (hlow : 2 ^ 23 ≤ significand) (hhigh : significand ≤ 2 ^ 24)
    (k : ℕ) : single (significand + k * 2 ^ 23) = significand * 2 ^ (-149 + k : ℤ) :=
  patternValue_significand hlow hhigh k

theorem single_strictMono : StrictMono single := patternValue_strictMono

/-- Both `1.0f - 1e-30f` and `1.0f + 1e-30f` are rounded to one. -/
theorem oneBits_nearest {y : ℝ} (h : |y - 1| ≤ 1 / 10 ^ 30) : IsNearestEven single y oneBits := by
  obtain ⟨hlow, hhigh⟩ := abs_le.mp h
  have hprevious : single 0x3f7fffff = 1 - 1 / 2 ^ 24 := by
    refine (single_eq _ (by decide : 2 ^ 23 ≤ 2 ^ 24 - 1) (by decide) 125).trans ?_
    norm_num
  have hone : single oneBits = 1 := by
    refine (single_eq _ (le_refl (2 ^ 23)) (by decide) 126).trans ?_
    norm_num
  have hnext : single (oneBits + 1) = 1 + 1 / 2 ^ 23 := by
    refine (single_eq _ (by decide : 2 ^ 23 ≤ 2 ^ 23 + 1) (by decide) 126).trans ?_
    norm_num
  obtain hge | hlt := le_or_gt 1 y
  · refine isNearestEven_below single_strictMono (hone.trans_le hge) ?_
    rw [hone, hnext]
    norm_num at hhigh ⊢
    linarith
  · refine isNearestEven_above single_strictMono (hlt.le.trans_eq hone.symm) ?_
    have hsum : single 0x3f7fffff + single oneBits < 2 * y := by
      rw [hprevious, hone]
      norm_num at hlow ⊢
      linarith
    exact hsum

/-! ### The digits -/

section Loop

variable {radicand : ℤ}

/-- The digits so far are those of the root up to `d`, and `ix` is twice the rest over `d`. -/
structure IsRoot (radicand d : ℤ) (w : Digits) : Prop where
  twice : w.s = 2 * w.q
  nonneg : 0 ≤ w.q
  bound : w.q + d ≤ 2 ^ 25
  le : w.q * w.q ≤ radicand
  lt : radicand < (w.q + d) * (w.q + d)
  rest : w.ix * d = 2 * (radicand - w.q * w.q)

theorem int32_eq {n : ℤ} (h : -2 ^ 31 ≤ n ∧ n < 2 ^ 31) : int32 n = some n := if_pos h

theorem toInt32_eq {n : ℤ} (h : -2 ^ 31 ≤ n ∧ n < 2 ^ 31) : toInt32 n = n := by
  unfold toInt32
  omega

theorem IsRoot.rest_bounds {r : ℕ} (hr : 0 < r) {w : Digits} (h : IsRoot radicand (2 * r) w) :
    0 ≤ w.ix ∧ w.ix < 4 * w.q + 4 * r := by
  have hpos : (0 : ℤ) < r := by exact_mod_cast hr
  have hle := h.le
  have hlt := h.lt
  have hrest : w.ix * r = radicand - w.q * w.q := by linarith [h.rest]
  constructor
  · by_contra hneg
    have hprod := mul_neg_of_neg_of_pos (not_le.mp hneg) hpos
    linarith
  · refine lt_of_mul_lt_mul_right ?_ hpos.le
    linarith

theorem digitStep_root {r : ℕ} (hr : 0 < r) {w : Digits} (h : IsRoot radicand (2 * r) w) :
    ∃ w', digitStep r w = some w' ∧ IsRoot radicand r w' := by
  obtain ⟨hix, hix'⟩ := h.rest_bounds hr
  obtain ⟨ix, s, q⟩ := w
  obtain ⟨htwice, hnonneg, hbound, hle, hlt, hrest⟩ := h
  dsimp only at htwice hnonneg hbound hle hlt hrest hix hix'
  subst htwice
  have hpos : (0 : ℤ) < r := by exact_mod_cast hr
  have ht : toInt32 (2 * q + r) = 2 * q + r := toInt32_eq (by omega)
  unfold digitStep
  dsimp only
  rw [ht]
  by_cases htest : 2 * q + r ≤ ix
  · have hnew : (q + r) * (q + r) ≤ radicand := by
      have hprod := mul_le_mul_of_nonneg_right htest hpos.le
      linarith
    refine ⟨⟨2 * (ix - (2 * q + r)), 2 * (q + r), q + r⟩, ?_, ?_⟩
    · rw [if_pos htest, int32_eq (by omega), toInt32_eq (by omega), toInt32_eq (by omega)]
      simp only [Option.bind_eq_bind, Option.bind_some, Option.pure_def]
      rw [int32_eq (by omega)]
      simp only [Option.bind_some, Option.some.injEq, Digits.mk.injEq, and_true]
      omega
    · refine ⟨rfl, by dsimp only; omega, by dsimp only; omega, hnew, ?_, ?_⟩
      · dsimp only
        linarith
      · dsimp only
        linarith
  · have hold : radicand < (q + r) * (q + r) := by
      have hprod := mul_lt_mul_of_pos_right (not_le.mp htest) hpos
      linarith
    refine ⟨⟨2 * ix, 2 * q, q⟩, ?_, ?_⟩
    · rw [if_neg htest]
      simp only [Option.bind_eq_bind, Option.bind_some, Option.pure_def]
      rw [int32_eq (by omega)]
      simp only [Option.bind_some, Option.some.injEq, Digits.mk.injEq, and_true]
      omega
    · refine ⟨rfl, hnonneg, by dsimp only; omega, hle, hold, ?_⟩
      dsimp only
      linarith

theorem digitLoop_pow (j : ℕ) (w : Digits) :
    digitLoop (2 ^ j) w = (digitStep (2 ^ j) w).bind (digitLoop (2 ^ j / 2)) := by
  rw [digitLoop, if_neg (by positivity)]
  rfl

theorem digitLoop_root (j : ℕ) {w : Digits} (h : IsRoot radicand (2 * (2 ^ j : ℕ)) w) :
    ∃ w', digitLoop (2 ^ j) w = some w' ∧ IsRoot radicand 1 w' := by
  induction j generalizing w with
  | zero =>
    obtain ⟨w', hstep, hroot⟩ := digitStep_root (by positivity) h
    refine ⟨w', ?_, hroot⟩
    rw [digitLoop_pow, hstep, Option.bind_some, digitLoop, if_pos (by decide)]
  | succ j ih =>
    obtain ⟨w', hstep, hroot⟩ := digitStep_root (by positivity) h
    have hnext : ((2 ^ (j + 1) : ℕ) : ℤ) = 2 * (2 ^ j : ℕ) := by
      push_cast
      ring
    rw [hnext] at hroot
    obtain ⟨w'', hloop, hfinal⟩ := ih hroot
    refine ⟨w'', ?_, hfinal⟩
    have hhalf : 2 ^ (j + 1) / 2 = 2 ^ j := by omega
    rw [digitLoop_pow, hstep, Option.bind_some, hhalf, hloop]

end Loop

/-! ### The result -/

section Result

/-- What the root is taken of, with an even exponent; the root has one digit more than the
significand. -/
def radicand (x : ℕ) : ℕ := (x % 2 ^ 23 + 2 ^ 23) * (if x / 2 ^ 23 % 2 = 0 then 4 else 2) * 2 ^ 24

theorem radicand_bounds (x : ℕ) : 2 ^ 48 ≤ radicand x ∧ radicand x < 2 ^ 50 := by
  have hfraction := Nat.mod_lt x (show 0 < 2 ^ 23 by decide)
  unfold radicand
  split <;> omega

theorem isRoot_start (x : ℕ) :
    IsRoot (radicand x) (2 * (2 ^ 24 : ℕ))
      ⟨(x % 2 ^ 23 + 2 ^ 23 : ℕ) * if x / 2 ^ 23 % 2 = 0 then 4 else 2, 0, 0⟩ := by
  obtain ⟨-, hlt⟩ := radicand_bounds x
  have hwidth : (2 * (2 ^ 24 : ℕ) : ℤ) = 2 ^ 25 := by norm_num
  rw [hwidth]
  refine ⟨rfl, le_refl 0, by norm_num, by dsimp only; omega, by dsimp only; omega, ?_⟩
  unfold radicand
  push_cast
  ring

theorem root_even {x q : ℕ} (h : q * q = radicand x) : q % 2 = 0 := by
  have heven : q * q % 2 = 0 := by
    rw [h, radicand]
    omega
  rw [Nat.mul_mod] at heven
  obtain hq | hq := Nat.mod_two_eq_zero_or_one q
  · exact hq
  · rw [hq] at heven
    cases heven

/-- Where the algorithm starts: the shifted significand, or that of twice the number. -/
theorem int32_start (x : ℕ) :
    int32 (((x : ℤ) % 2 ^ 23 + 2 ^ 23) * if ((x : ℤ) / 2 ^ 23 - 127) % 2 = 1 then 4 else 2) =
      some (((x % 2 ^ 23 + 2 ^ 23 : ℕ) : ℤ) * if x / 2 ^ 23 % 2 = 0 then 4 else 2) := by
  have hparity : ((x : ℤ) / 2 ^ 23 - 127) % 2 = 1 ↔ x / 2 ^ 23 % 2 = 0 := by omega
  simp only [hparity]
  rw [int32_eq]
  · push_cast
    rfl
  · split <;> omega

/-- Half of the rounded root; without a rest the root is even. -/
theorem roundDigits_half {ix s : ℤ} {x q : ℕ} (hq : q < 2 ^ 25)
    (hrest : ix * 1 = 2 * ((radicand x : ℤ) - q * q)) :
    ∃ n, roundDigits ⟨ix, s, q⟩ = some n ∧ n / 2 = ((q + 1) / 2 : ℕ) := by
  unfold roundDigits
  dsimp only
  split
  next => exact ⟨_, int32_eq (by omega), by omega⟩
  next hzero =>
    have hsquare : q * q = radicand x := by
      rw [not_not.mp hzero] at hrest
      have hsquare' : (q : ℤ) * q = radicand x := by linarith
      exact_mod_cast hsquare'
    have heven := root_even hsquare
    exact ⟨_, rfl, by omega⟩

theorem vnaSqrtf_root {x : ℕ} (hnormal : 2 ^ 23 ≤ x) (hfinite : x < 0x7f800000) :
    ∃ q : ℕ, q < 2 ^ 25 ∧ q * q ≤ radicand x ∧ radicand x < (q + 1) * (q + 1) ∧
      vnaSqrtf x = some ((q + 1) / 2 + (x / 2 ^ 23 + 125) / 2 * 2 ^ 23) := by
  obtain ⟨w, hloop, htwice, hnonneg, hbound, hle, hlt, hrest⟩ := digitLoop_root 24 (isRoot_start x)
  obtain ⟨ix, s, q⟩ := w
  dsimp only at htwice hnonneg hbound hle hlt hrest
  lift q to ℕ using hnonneg
  have hle' : q * q ≤ radicand x := by exact_mod_cast hle
  have hfraction := Nat.mod_lt x (show 0 < 2 ^ 23 by decide)
  refine ⟨q, by omega, hle', by exact_mod_cast hlt, ?_⟩
  have hx : toInt32 x = x := toInt32_eq (by omega)
  have hm : int32 ((x : ℤ) / 2 ^ 23 - 127) = some ((x : ℤ) / 2 ^ 23 - 127) := int32_eq (by omega)
  have hix := int32_start x
  obtain ⟨n, hn, hhalf⟩ := roundDigits_half (s := s) (by omega) hrest
  have hzero : ¬ (x : ℤ) = 0 := by omega
  have hloop' : digitLoop 0x01000000
      ⟨((x % 2 ^ 23 + 2 ^ 23 : ℕ) : ℤ) * if x / 2 ^ 23 % 2 = 0 then 4 else 2, 0, 0⟩ =
        some ⟨ix, s, q⟩ := hloop
  unfold vnaSqrtf
  simp only [hx, if_neg hzero, hm, hix, hloop', hn, hhalf, Option.bind_eq_bind, Option.bind_some]
  rw [int32_eq (by omega), Option.bind_some, int32_eq (by omega), Option.bind_some,
    int32_eq (by omega), Option.bind_some, Option.some.injEq]
  omega

theorem sqrt_between {n q : ℕ} (hle : q * q ≤ n) (hlt : n < (q + 1) * (q + 1)) :
    (q : ℝ) ≤ √n ∧ √n < q + 1 := by
  constructor
  · refine Real.le_sqrt_of_sq_le ?_
    rw [sq]
    exact_mod_cast hle
  · rw [Real.sqrt_lt' (by positivity), sq]
    exact_mod_cast hlt

theorem nearest_of_root {n q k : ℕ} (hlow : 2 ^ 24 ≤ q) (hhigh : q < 2 ^ 25) (hle : q * q ≤ n)
    (hlt : n < (q + 1) * (q + 1)) (hodd : q % 2 = 1 → q * q ≠ n) :
    IsNearestEven single (√n * 2 ^ (-150 + k : ℤ)) ((q + 1) / 2 + k * 2 ^ 23) := by
  have hunit : (0 : ℝ) < 2 ^ (-150 + k : ℤ) := zpow_pos two_pos _
  have hdouble : (2 : ℝ) ^ (-149 + k : ℤ) = 2 * 2 ^ (-150 + k : ℤ) := by
    rw [← zpow_one_add₀ two_ne_zero]
    congr 1
    ring
  obtain ⟨hroot, hroot'⟩ := sqrt_between hle hlt
  obtain ⟨h, rfl | rfl⟩ := Nat.even_or_odd' q
  · have hhalf : (2 * h + 1) / 2 = h := by omega
    have hthis := single_eq h (by omega) (by omega) k
    have hnext := single_eq (h + 1) (by omega) (by omega) k
    rw [Nat.add_right_comm, Nat.cast_succ] at hnext
    push_cast at hroot hroot'
    have hbelow := mul_le_mul_of_nonneg_right hroot hunit.le
    have habove := mul_lt_mul_of_pos_right hroot' hunit
    rw [hhalf]
    refine isNearestEven_below single_strictMono ?_ ?_
    · rw [hthis, hdouble]
      linarith
    · rw [hthis, hnext, hdouble]
      linarith
  · have hhalf : (2 * h + 1 + 1) / 2 = h + 1 := by omega
    have hthis := single_eq h (by omega) (by omega) k
    have hnext := single_eq (h + 1) (by omega) (by omega) k
    rw [Nat.add_right_comm, Nat.cast_succ] at hnext
    have hrest : ((2 * h + 1 : ℕ) : ℝ) < √n := by
      refine lt_of_le_of_ne hroot fun heq => hodd (by omega) ?_
      have hsquare := Real.mul_self_sqrt (Nat.cast_nonneg (α := ℝ) n)
      rw [← heq] at hsquare
      exact_mod_cast hsquare
    push_cast at hrest hroot'
    have hbelow := mul_lt_mul_of_pos_right hrest hunit
    have habove := mul_lt_mul_of_pos_right hroot' hunit
    rw [hhalf, Nat.add_right_comm]
    refine isNearestEven_above single_strictMono ?_ ?_
    · rw [hnext, hdouble]
      linarith
    · rw [hthis, hnext, hdouble]
      linarith

theorem pow_mul_zpow_sq (n : ℕ) (a : ℤ) : (2 : ℝ) ^ n * (2 ^ a) ^ 2 = 2 ^ (n + 2 * a) := by
  rw [zpow_add₀ two_ne_zero, zpow_natCast, mul_comm 2 a, zpow_mul]
  rfl

theorem single_radicand {x : ℕ} (hnormal : 2 ^ 23 ≤ x) :
    single x = radicand x * (2 ^ (-150 + ((x / 2 ^ 23 + 125) / 2 : ℕ) : ℤ)) ^ 2 := by
  have hexponent : 1 ≤ x / 2 ^ 23 := (Nat.one_le_div_iff (by decide)).mpr hnormal
  have hfraction := Nat.mod_lt x (show 0 < 2 ^ 23 by decide)
  have hx : x = x % 2 ^ 23 + 2 ^ 23 + (x / 2 ^ 23 - 1) * 2 ^ 23 := by omega
  have hsingle := single_eq (x % 2 ^ 23 + 2 ^ 23) (by omega) (by omega)
    (x / 2 ^ 23 - 1)
  rw [← hx] at hsingle
  rw [hsingle, radicand]
  generalize x / 2 ^ 23 = exponent at *
  have hscale : (2 : ℝ) ^ (-149 + (exponent - 1 : ℕ) : ℤ) =
      (if exponent % 2 = 0 then 4 else 2) * 2 ^ 24 *
        (2 ^ (-150 + ((exponent + 125) / 2 : ℕ) : ℤ)) ^ 2 := by
    split
    next =>
      have hfour : (4 : ℝ) * 2 ^ 24 = 2 ^ 26 := by norm_num
      rw [hfour, pow_mul_zpow_sq]
      congr 1
      omega
    next =>
      have htwo : (2 : ℝ) * 2 ^ 24 = 2 ^ 25 := by norm_num
      rw [htwo, pow_mul_zpow_sq]
      congr 1
      omega
  rw [hscale]
  push_cast
  ring

/-- For every positive normal pattern the algorithm ends without an overflow, on the pattern of
the root rounded to the nearest value. -/
theorem vnaSqrtf_nearest (x : ℕ) (hnormal : 2 ^ 23 ≤ x) (hfinite : x < 0x7f800000) :
    ∃ root, vnaSqrtf x = some root ∧ root < 0x7f800000 ∧
      IsNearestEven single √(single x) root := by
  obtain ⟨q, hhigh, hle, hlt, hroot⟩ := vnaSqrtf_root hnormal hfinite
  refine ⟨_, hroot, by omega, ?_⟩
  have hlow : 2 ^ 24 ≤ q := by
    by_contra hsmall
    have hsquare : (q + 1) * (q + 1) ≤ 2 ^ 24 * 2 ^ 24 :=
      Nat.mul_le_mul (not_le.mp hsmall) (not_le.mp hsmall)
    have hbound := (radicand_bounds x).1
    omega
  have hodd : q % 2 = 1 → q * q ≠ radicand x := fun hone heq => by
    rw [root_even heq] at hone
    cases hone
  have hvalue : √(single x) =
      √(radicand x) * 2 ^ (-150 + ((x / 2 ^ 23 + 125) / 2 : ℕ) : ℤ) := by
    rw [single_radicand hnormal, Real.sqrt_mul (Nat.cast_nonneg _),
      Real.sqrt_sq (by positivity)]
  rw [hvalue]
  exact nearest_of_root hlow hhigh hle hlt hodd

/-- The root of two. -/
theorem vnaSqrtf_nearest_two : 2 ^ 23 ≤ 0x40000000 ∧ 0x40000000 < 0x7f800000 ∧
    ∃ root, vnaSqrtf 0x40000000 = some root ∧ root < 0x7f800000 ∧
      IsNearestEven single √(single 0x40000000) root :=
  ⟨by decide, by decide, vnaSqrtf_nearest 0x40000000 (by decide) (by decide)⟩

end Result

end NanoVNA.VnaSqrt
