import NanoVNA.Si5351Ratios

namespace NanoVNA.ApproximateFraction

open NanoVNA.Word32 NanoVNA.Si5351 NanoVNA.Si5351Ratios NanoVNA.Convergents

variable {n d : Nat} {s : State}

/-- One round of the loop of `approximate_fraction`; `none` where the loop is left. -/
def approximateRound (s : State) : Option State :=
  if s.den = 0 then none
  else
    let a := s.num / s.den
    let q2 := u32 (s.q0 + u32 (a * s.q1))
    if maxDenominator < q2 then none
    else some ⟨s.den, s.num % s.den, s.p1, s.q1, u32 (s.p0 + u32 (a * s.p1)), q2⟩

/-- The recurrences of the round keep to 32 bits; a sum that does so has a product that does. -/
structure NoOverflow (s : State) : Prop where
  q2 : s.den ≠ 0 → s.q0 + s.num / s.den * s.q1 < 2 ^ 32
  p2 : s.den ≠ 0 → s.p0 + s.num / s.den * s.p1 < 2 ^ 32

inductive Ends : State → State → Prop
  | exit {s : State} (hs : NoOverflow s) (h : approximateRound s = none) : Ends s s
  | round {s t last : State} (hs : NoOverflow s) (h : approximateRound s = some t)
      (hlast : Ends t last) : Ends s last

theorem noOverflow_of_expands (hn : n < 2 ^ 32) (hd : d < 2 ^ 32) (h : Expands n d s) :
    NoOverflow s where
  q2 hden := by
    have hle := Nat.le_mul_of_pos_right s.next.q1 (Nat.pos_of_ne_zero hden)
    exact Nat.lt_of_le_of_lt (hle.trans h.next_q1_mul_le) hd
  p2 hden := by
    have hle := Nat.le_mul_of_pos_right s.next.p1 (Nat.pos_of_ne_zero hden)
    exact Nat.lt_of_le_of_lt (hle.trans h.next_p1_mul_le) hn

theorem approximateRound_eq (hs : NoOverflow s) :
    approximateRound s =
      if s.den = 0 ∨ maxDenominator < s.next.q1 then none else some s.next := by
  by_cases hden : s.den = 0
  · rw [approximateRound, if_pos hden, if_pos (.inl hden)]
  · have hq := hs.q2 hden
    have hp := hs.p2 hden
    have hq2 : u32 (s.q0 + u32 (s.num / s.den * s.q1)) = s.next.q1 := by
      rw [u32_of_lt (Nat.lt_of_le_of_lt (Nat.le_add_left _ _) hq), u32_of_lt hq]
      rfl
    have hp2 : u32 (s.p0 + u32 (s.num / s.den * s.p1)) = s.next.p1 := by
      rw [u32_of_lt (Nat.lt_of_le_of_lt (Nat.le_add_left _ _) hp), u32_of_lt hp]
      rfl
    simp only [approximateRound, hq2, hp2, hden, false_or]
    rfl

theorem ends_truncate (hn : n < 2 ^ 32) (hd : d < 2 ^ 32) {fuel : Nat} (h : Expands n d s)
    (hfuel : s.den ≤ fuel) : Ends s (truncate maxDenominator fuel s) := by
  induction fuel generalizing s with
  | zero =>
    have hs := noOverflow_of_expands hn hd h
    refine .exit hs ?_
    rw [approximateRound_eq hs, if_pos (.inl (Nat.le_zero.mp hfuel))]
  | succ fuel ih =>
    have hs := noOverflow_of_expands hn hd h
    have hround := approximateRound_eq hs
    rw [truncate]
    split
    case isTrue hend =>
      rw [if_pos hend] at hround
      exact .exit hs hround
    case isFalse hgo =>
      rw [if_neg hgo] at hround
      have hden : s.den ≠ 0 := fun he => hgo (.inl he)
      have hlt : s.next.den < s.den := Nat.mod_lt _ (Nat.pos_of_ne_zero hden)
      exact .round hs hround (ih (h.next hden) (by omega))

/-- The fraction that replaces `n / d`, when its denominator is above the limit. -/
structure Replaces (n d : Nat) (last : State) : Prop where
  denominator : 1 ≤ last.q1 ∧ last.q1 ≤ 2 ^ 20 - 1
  error : |(n : ℤ) * last.q1 - d * last.p1| * 2 ^ 20 ≤ d

theorem replaces_truncate (hd : 0 < d) : Replaces n d (truncate maxDenominator d (start n d)) := by
  obtain ⟨h, hle⟩ := truncate_expands d (start_expands n d) (Nat.zero_le maxDenominator)
  refine ⟨⟨truncate_q1_pos hd (by decide), hle⟩, ?_⟩
  have hrest := @truncate_remainder n d maxDenominator
  rw [h.cross, mul_comm]
  exact_mod_cast hrest

/-- `approximate_fraction` comes to an end without an overflow, and keeps a fraction of at most 20
bits or replaces it by one that is close. -/
theorem approximateFraction_close (hn : n < d) (hd : d < 2 ^ 32) :
    (d ≤ 2 ^ 20 - 1 → approximateFraction u32 n d = (n, d)) ∧
      (2 ^ 20 - 1 < d → ∃ last, Ends (start n d) last ∧
        approximateFraction u32 n d = (last.p1, last.q1) ∧ Replaces n d last) := by
  have hexp := start_expands n d
  constructor
  · intro hlimit
    exact if_neg (Nat.not_lt.mpr hlimit)
  · intro hlimit
    refine ⟨_, ends_truncate (hn.trans hd) hd hexp (Nat.le_refl d), ?_,
      replaces_truncate (Nat.zero_lt_of_lt hn)⟩
    have hgo : maxDenominator < d := hlimit
    rw [approximateFraction, if_pos hgo]
    exact approximateLoop_eq (fun _ => u32_of_lt) (hn.trans hd) hd d hexp

theorem approximateFraction_close_pll :
    (6000001 ≤ 2 ^ 20 - 1 → approximateFraction u32 5000000 6000001 = (5000000, 6000001)) ∧
      (2 ^ 20 - 1 < 6000001 → ∃ last, Ends (start 5000000 6000001) last ∧
        approximateFraction u32 5000000 6000001 = (last.p1, last.q1) ∧
          Replaces 5000000 6000001 last) :=
  approximateFraction_close (by decide) (by decide)

end NanoVNA.ApproximateFraction
