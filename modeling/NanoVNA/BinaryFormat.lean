import Mathlib.Algebra.Order.Field.Power
import Mathlib.Order.Monotone.Basic
import Mathlib.Tactic.Linarith
import Mathlib.Tactic.Positivity
import Mathlib.Tactic.Ring
import NanoVNA.Numerals

namespace NanoVNA.BinaryFormat

variable {K : Type} [Field K] [LinearOrder K] [IsStrictOrderedRing K]

/-! ### Rounding to the nearest value -/

/-- No value is nearer, and where another one is as near the pattern is even. -/
structure IsNearestEven (value : ℕ → K) (y : K) (bits : ℕ) : Prop where
  nearest : ∀ other, |value bits - y| ≤ |value other - y|
  even : ∀ other, other ≠ bits → |value other - y| = |value bits - y| → Even bits

section Nearest

variable {value : ℕ → K} {y : K} {bits : ℕ}

omit [Field K] [IsStrictOrderedRing K] in
theorem le_or_le_of_ne (hmono : StrictMono value) {other : ℕ} (hne : other ≠ bits) :
    other < bits ∧ value other < value bits ∨ value (bits + 1) ≤ value other := by
  obtain hlt | hgt := lt_or_gt_of_ne hne
  · exact Or.inl ⟨hlt, hmono hlt⟩
  · exact Or.inr (hmono.monotone hgt)

omit [IsStrictOrderedRing K] in
theorem isNearestEven_of_lt (h : ∀ other, other ≠ bits → |value bits - y| < |value other - y|) :
    IsNearestEven value y bits where
  nearest other := by
    obtain rfl | hne := eq_or_ne other bits
    · exact le_refl _
    · exact (h other hne).le
  even other hne heq := absurd heq (h other hne).ne'

theorem isNearestEven_below (hmono : StrictMono value) (hle : value bits ≤ y)
    (hmiddle : 2 * y < value bits + value (bits + 1)) : IsNearestEven value y bits := by
  refine isNearestEven_of_lt fun other hne => ?_
  rw [abs_of_nonpos (sub_nonpos.mpr hle)]
  obtain ⟨-, hlt⟩ | hge := le_or_le_of_ne hmono hne
  · rw [abs_of_nonpos (by linarith)]
    linarith
  · rw [abs_of_nonneg (by linarith)]
    linarith

theorem isNearestEven_above (hmono : StrictMono value) (hle : y ≤ value (bits + 1))
    (hmiddle : value bits + value (bits + 1) < 2 * y) : IsNearestEven value y (bits + 1) := by
  refine isNearestEven_of_lt fun other hne => ?_
  rw [abs_of_nonneg (sub_nonneg.mpr hle)]
  obtain ⟨hlt, -⟩ | hge := le_or_le_of_ne hmono hne
  · have hbelow := hmono.monotone (Nat.le_of_lt_succ hlt)
    rw [abs_of_nonpos (by linarith)]
    linarith
  · have hnext := hmono (Nat.lt_succ_self (bits + 1))
    rw [abs_of_nonneg (by linarith)]
    linarith

end Nearest

/-! ### The values of bit patterns -/

section Values

variable (K) (p : ℕ) (e : ℤ)

/-- The value of a pattern of `p` bits of fraction under an exponent, without a sign; `2 ^ e` is
the smallest value above 0. -/
def patternValue (bits : ℕ) : K :=
  if bits / 2 ^ p = 0 then (bits % 2 ^ p : ℕ) * 2 ^ e
  else (2 ^ p + bits % 2 ^ p : ℕ) * 2 ^ (e + (bits / 2 ^ p - 1 : ℕ))

variable {K p e}

theorem patternValue_significand {significand : ℕ} (hlow : 2 ^ p ≤ significand)
    (hhigh : significand ≤ 2 ^ (p + 1)) (k : ℕ) :
    patternValue K p e (significand + k * 2 ^ p) = significand * 2 ^ (e + k) := by
  have hpos : 0 < 2 ^ p := by positivity
  have htwo : (2 : K) ≠ 0 := two_ne_zero
  rw [pow_succ] at hhigh
  obtain hlt | heq := hhigh.lt_or_eq
  · obtain ⟨f, rfl⟩ := Nat.exists_eq_add_of_le hlow
    have hf : f < 2 ^ p := by omega
    have hbits : 2 ^ p + f + k * 2 ^ p = f + 2 ^ p * (k + 1) := by ring
    rw [patternValue, hbits, Nat.add_mul_div_left _ _ hpos, Nat.div_eq_of_lt hf, Nat.zero_add,
      if_neg (Nat.succ_ne_zero k), Nat.add_mul_mod_self_left, Nat.mod_eq_of_lt hf,
      Nat.add_sub_cancel]
  · have hbits : significand + k * 2 ^ p = 0 + 2 ^ p * (k + 2) := by rw [heq]; ring
    rw [patternValue, hbits, Nat.add_mul_div_left _ _ hpos, Nat.zero_div, Nat.zero_add,
      if_neg (Nat.succ_ne_zero _), Nat.add_mul_mod_self_left, Nat.zero_mod, Nat.add_zero, heq]
    have hexponent : e + ((k + 2 - 1 : ℕ) : ℤ) = e + k + 1 := by
      rw [Nat.add_sub_assoc (by omega)]
      push_cast
      ring
    rw [hexponent, zpow_add_one₀ htwo]
    push_cast
    ring

theorem patternValue_fraction {bits : ℕ} (h : bits ≤ 2 ^ p) :
    patternValue K p e bits = bits * 2 ^ e := by
  obtain hlt | rfl := h.lt_or_eq
  · rw [patternValue, if_pos (Nat.div_eq_of_lt hlt), Nat.mod_eq_of_lt hlt]
  · have hvalue := patternValue_significand (K := K) (e := e) (le_refl (2 ^ p))
      (Nat.pow_le_pow_right two_pos (Nat.le_succ p)) 0
    rwa [Nat.zero_mul, Nat.add_zero, Nat.cast_zero, add_zero] at hvalue

theorem patternValue_strictMono : StrictMono (patternValue K p e) := by
  refine strictMono_nat_of_lt_succ fun bits => ?_
  have hstep (a : ℕ) (n : ℤ) : (a : K) * 2 ^ n < (a + 1 : ℕ) * 2 ^ n := by
    refine mul_lt_mul_of_pos_right ?_ (zpow_pos two_pos n)
    exact_mod_cast Nat.lt_succ_self a
  obtain hlt | hge := lt_or_ge bits (2 ^ p)
  · rw [patternValue_fraction hlt.le, patternValue_fraction (Nat.succ_le_of_lt hlt)]
    exact hstep bits e
  · have hpos : 0 < 2 ^ p := by positivity
    obtain ⟨k, hk⟩ := Nat.exists_eq_add_of_le' ((Nat.one_le_div_iff hpos).mpr hge)
    have hmod := Nat.mod_lt bits hpos
    have hbits : bits = 2 ^ p + bits % 2 ^ p + k * 2 ^ p := by
      have hdiv := Nat.div_add_mod bits (2 ^ p)
      rw [hk, Nat.mul_add, Nat.mul_one, Nat.mul_comm] at hdiv
      omega
    have hnext : bits + 1 = 2 ^ p + bits % 2 ^ p + 1 + k * 2 ^ p := by omega
    have hdouble : 2 ^ (p + 1) = 2 ^ p + 2 ^ p := by rw [pow_succ]; ring
    rw [hnext, hbits, patternValue_significand (by omega) (by omega),
      ← hbits, patternValue_significand (by omega) (by omega)]
    exact hstep _ _

end Values

end NanoVNA.BinaryFormat
