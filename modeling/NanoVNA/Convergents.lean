import Mathlib.Data.Rat.Cast.Order
import Mathlib.Tactic.Linarith
import Mathlib.Tactic.LinearCombination
import Mathlib.Tactic.Positivity
import Mathlib.Tactic.Ring

namespace NanoVNA.Convergents

/-- The pair still to be divided, the last convergent `p1 / q1` and the one before it. -/
structure State where
  num : Nat
  den : Nat
  p0 : Nat
  q0 : Nat
  p1 : Nat
  q1 : Nat
  deriving DecidableEq, Repr

def start (n d : Nat) : State := ⟨n, d, 0, 1, 1, 0⟩

def State.next (s : State) : State :=
  ⟨s.den, s.num % s.den, s.p1, s.q1, s.p0 + s.num / s.den * s.p1, s.q0 + s.num / s.den * s.q1⟩

/-- Continue the expansion while the denominator of the convergent stays within the limit. -/
def truncate (limit : Nat) : Nat → State → State
  | 0, s => s
  | fuel + 1, s =>
    if s.den = 0 ∨ limit < s.next.q1 then s else truncate limit fuel s.next

/-- What every state of the expansion of `n / d` satisfies. -/
structure Expands (n d : Nat) (s : State) : Prop where
  num_eq : s.p1 * s.num + s.p0 * s.den = n
  den_eq : s.q1 * s.num + s.q0 * s.den = d
  det : s.p1 * s.q0 = s.p0 * s.q1 + 1 ∨ s.p0 * s.q1 = s.p1 * s.q0 + 1
  first : s.q1 = 0 → s.q0 = 1
  later : 0 < s.q1 → s.den < s.num

theorem start_expands (n d : Nat) : Expands n d (start n d) where
  num_eq := by simp [start]
  den_eq := by simp [start]
  det := by simp [start]
  first _ := rfl
  later h := absurd h (by simp [start])

theorem Expands.next_q1_pos {n d : Nat} {s : State} (h : Expands n d s) (hs : s.den ≠ 0) :
    0 < s.next.q1 := by
  obtain hq | hq := Nat.eq_zero_or_pos s.q1
  · simp [State.next, hq, h.first hq]
  · have ha : 0 < s.num / s.den := Nat.div_pos (h.later hq).le (Nat.pos_of_ne_zero hs)
    have := Nat.mul_pos ha hq
    simp only [State.next]
    omega

theorem Expands.next {n d : Nat} {s : State} (h : Expands n d s) (hs : s.den ≠ 0) :
    Expands n d s.next where
  num_eq := by
    rw [← h.num_eq, State.next]
    conv_rhs => rw [← Nat.div_add_mod s.num s.den]
    ring
  den_eq := by
    rw [← h.den_eq, State.next]
    conv_rhs => rw [← Nat.div_add_mod s.num s.den]
    ring
  det := by
    simp only [State.next]
    obtain hd | hd := h.det
    · right
      linear_combination hd
    · left
      linear_combination hd
  first hq := absurd hq (h.next_q1_pos hs).ne'
  later _ := Nat.mod_lt _ (Nat.pos_of_ne_zero hs)

theorem Expands.next_q1_mul_le {n d : Nat} {s : State} (h : Expands n d s) :
    s.next.q1 * s.den ≤ d := by
  have hm : s.num / s.den * s.den ≤ s.num := Nat.div_mul_le_self ..
  calc s.next.q1 * s.den = s.q1 * (s.num / s.den * s.den) + s.q0 * s.den := by
        simp only [State.next]; ring
    _ ≤ s.q1 * s.num + s.q0 * s.den := by gcongr
    _ = d := h.den_eq

theorem Expands.next_p1_mul_le {n d : Nat} {s : State} (h : Expands n d s) :
    s.next.p1 * s.den ≤ n := by
  have hm : s.num / s.den * s.den ≤ s.num := Nat.div_mul_le_self ..
  calc s.next.p1 * s.den = s.p1 * (s.num / s.den * s.den) + s.p0 * s.den := by
        simp only [State.next]; ring
    _ ≤ s.p1 * s.num + s.p0 * s.den := by gcongr
    _ = n := h.num_eq

/-- The fraction and a convergent differ by the remainder left, once the denominators are cleared. -/
theorem Expands.cross {n d : Nat} {s : State} (h : Expands n d s) :
    |(n : ℤ) * s.q1 - d * s.p1| = s.den := by
  have hn : (s.p1 * s.num + s.p0 * s.den : ℤ) = n := by exact_mod_cast h.num_eq
  have hm : (s.q1 * s.num + s.q0 * s.den : ℤ) = d := by exact_mod_cast h.den_eq
  obtain hdet | hdet := h.det
  · have hdet' : (s.p1 * s.q0 : ℤ) = s.p0 * s.q1 + 1 := by exact_mod_cast hdet
    rw [show (n : ℤ) * s.q1 - d * s.p1 = -s.den by
      linear_combination -(s.q1 : ℤ) * hn + s.p1 * hm - s.den * hdet', abs_neg, Nat.abs_cast]
  · have hdet' : (s.p0 * s.q1 : ℤ) = s.p1 * s.q0 + 1 := by exact_mod_cast hdet
    rw [show (n : ℤ) * s.q1 - d * s.p1 = s.den by
      linear_combination -(s.q1 : ℤ) * hn + s.p1 * hm + s.den * hdet', Nat.abs_cast]

theorem Expands.error {n d : Nat} {s : State} (h : Expands n d s) (hd : 0 < d) (hq : 0 < s.q1) :
    |(n : ℚ) / d - s.p1 / s.q1| = s.den / (s.q1 * d) := by
  have hd' : (0 : ℚ) < d := by exact_mod_cast hd
  have hq' : (0 : ℚ) < s.q1 := by exact_mod_cast hq
  have hcross : |(n : ℚ) * s.q1 - d * s.p1| = s.den := by exact_mod_cast h.cross
  rw [div_sub_div _ _ hd'.ne' hq'.ne', abs_div, abs_of_pos (mul_pos hd' hq'), hcross,
    mul_comm (d : ℚ)]

theorem truncate_expands {n d limit : Nat} (fuel : Nat) {s : State} (h : Expands n d s)
    (hq : s.q1 ≤ limit) :
    Expands n d (truncate limit fuel s) ∧ (truncate limit fuel s).q1 ≤ limit := by
  induction fuel generalizing s with
  | zero => exact ⟨h, hq⟩
  | succ fuel ih =>
    rw [truncate]
    split
    · exact ⟨h, hq⟩
    · rename_i hgo
      exact ih (h.next (fun he => hgo (.inl he))) (Nat.not_lt.mp fun he => hgo (.inr he))

/-- The remainder shrinks in every round, so the expansion stops by itself. -/
theorem truncate_stops (limit : Nat) {fuel : Nat} {s : State} (hs : s.den ≤ fuel) :
    (truncate limit fuel s).den = 0 ∨ limit < (truncate limit fuel s).next.q1 := by
  induction fuel generalizing s with
  | zero => exact .inl (Nat.le_zero.mp hs)
  | succ fuel ih =>
    rw [truncate]
    split
    · assumption
    · rename_i hgo
      have hden : 0 < s.den := Nat.pos_of_ne_zero fun he => hgo (.inl he)
      have hlt : s.next.den < s.den := Nat.mod_lt _ hden
      exact ih (by omega)

section Result

variable {n d limit : Nat} (hd : 0 < d) (hl : 0 < limit)
include hd hl

theorem truncate_q1_pos : 0 < (truncate limit d (start n d)).q1 := by
  have h := (truncate_expands d (start_expands n d) (Nat.zero_le limit)).1
  refine Nat.pos_of_ne_zero fun hq => ?_
  have hden := h.den_eq
  rw [hq, h.first hq, Nat.zero_mul, Nat.zero_add, Nat.one_mul] at hden
  obtain he | he := truncate_stops limit (s := start n d) (Nat.le_refl d)
  · omega
  · simp only [State.next, hq, h.first hq, Nat.mul_zero, Nat.add_zero] at he
    omega

omit hd hl in
theorem truncate_remainder : (limit + 1) * (truncate limit d (start n d)).den ≤ d := by
  have h := (truncate_expands d (start_expands n d) (Nat.zero_le limit)).1
  obtain he | he := truncate_stops limit (s := start n d) (Nat.le_refl d)
  · rw [he, Nat.mul_zero]
    exact Nat.zero_le d
  · exact (Nat.mul_le_mul_right _ he).trans h.next_q1_mul_le

/-- Cutting the expansion at a limit costs less than one part in the limit. -/
theorem truncate_error :
    |(n : ℚ) / d - (truncate limit d (start n d)).p1 / (truncate limit d (start n d)).q1| ≤
      1 / (limit + 1) := by
  have h := (truncate_expands d (start_expands n d) (Nat.zero_le limit)).1
  have hq := truncate_q1_pos (n := n) hd hl
  have hmul := @truncate_remainder n d limit
  rw [h.error hd hq]
  generalize truncate limit d (start n d) = s at *
  have hd' : (0 : ℚ) < d := by exact_mod_cast hd
  have hq' : (1 : ℚ) ≤ s.q1 := by exact_mod_cast hq
  have hmul' : ((limit : ℚ) + 1) * s.den ≤ d := by exact_mod_cast hmul
  rw [div_le_div_iff₀ (by positivity) (by positivity), one_mul]
  calc (s.den : ℚ) * (limit + 1) = 1 * ((limit + 1) * s.den) := by ring
    _ ≤ s.q1 * d := by gcongr

theorem truncate_p1_le (hn : n < d) :
    (truncate limit d (start n d)).p1 ≤ (truncate limit d (start n d)).q1 := by
  have hq := truncate_q1_pos (n := n) hd hl
  have hlim := (truncate_expands d (start_expands n d) (Nat.zero_le limit)).2
  have herr := truncate_error (n := n) hd hl
  generalize truncate limit d (start n d) = s at *
  have hd' : (0 : ℚ) < d := by exact_mod_cast hd
  have hq' : (0 : ℚ) < s.q1 := by exact_mod_cast hq
  have hn' : (n : ℚ) / d < 1 := (div_lt_one hd').mpr (by exact_mod_cast hn)
  have hp : (s.p1 : ℚ) / s.q1 < 1 + 1 / (limit + 1) := by
    linarith [(abs_le.mp herr).1]
  have hsmall : (s.q1 : ℚ) / (limit + 1) < 1 := by
    rw [div_lt_one (by positivity)]
    exact_mod_cast Nat.lt_succ_of_le hlim
  have hlt : (s.p1 : ℚ) < s.q1 + 1 := by
    rw [div_lt_iff₀ hq'] at hp
    calc (s.p1 : ℚ) < (1 + 1 / (limit + 1)) * s.q1 := hp
      _ = s.q1 + s.q1 / (limit + 1) := by ring
      _ < s.q1 + 1 := by linarith
  exact Nat.lt_succ_iff.mp (by exact_mod_cast hlt)

end Result

end NanoVNA.Convergents
