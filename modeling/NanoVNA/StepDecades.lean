import Mathlib.Order.Bounds.Basic
import NanoVNA.StepRounding

namespace NanoVNA.StepDecades

open NanoVNA.Word32 NanoVNA.StepRounding

/-! ### The steps without overflow -/

def mul32 (x k : Nat) : Option Nat := if x * k < 2 ^ 32 then some (x * k) else none

def exactLoop (v : Nat) : Nat → Nat → Option Nat
  | 0, _ => none
  | fuel + 1, x => do
    let nx ← mul32 x 10
    if nx < v then exactLoop v fuel nx else some x

def exactOf (v x : Nat) : Option Nat := do
  let twice ← mul32 x 2
  if v < twice then some x
  else do
    let five ← mul32 x 5
    if v < five then some twice else some five

def exactRound (fuel v : Nat) : Option Nat := (exactLoop v fuel 1).bind (exactOf v)

def RoundsExactly (v r : Nat) : Prop := ∃ fuel, exactRound fuel v = some r

def OneTwoFive (n : Nat) : Prop := ∃ k, n = 10 ^ k ∨ n = 10 ^ k * 2 ∨ n = 10 ^ k * 5

section Exact

variable {v : Nat}

theorem mul32_u32 {x k n : Nat} (h : mul32 x k = some n) : u32 (x * k) = n := by
  unfold mul32 at h
  split at h
  next hlt =>
    cases h
    exact u32_of_lt hlt
  next => cases h

theorem stepLoop_of_exact {fuel x r : Nat} (h : exactLoop v fuel x = some r) :
    stepLoop v fuel x = some r := by
  induction fuel generalizing x with
  | zero => cases h
  | succ fuel ih =>
    obtain ⟨nx, hmul, h⟩ := Option.bind_eq_some_iff.mp h
    rw [stepLoop, mul32_u32 hmul]
    split
    next hlt =>
      rw [if_pos hlt] at h
      exact ih h
    next hge => rwa [if_neg hge] at h

theorem stepOf_of_exact {x r : Nat} (h : exactOf v x = some r) : stepOf v x = r := by
  obtain ⟨twice, htwice, h⟩ := Option.bind_eq_some_iff.mp h
  rw [stepOf, mul32_u32 htwice]
  split
  next hlt =>
    rw [if_pos hlt] at h
    exact Option.some.inj h
  next hge =>
    rw [if_neg hge] at h
    obtain ⟨five, hfive, h⟩ := Option.bind_eq_some_iff.mp h
    rw [mul32_u32 hfive]
    split
    next hlt =>
      rw [if_pos hlt] at h
      exact Option.some.inj h
    next hge' =>
      rw [if_neg hge'] at h
      exact Option.some.inj h

theorem RoundsExactly.roundsTo {r : Nat} (h : RoundsExactly v r) : RoundsTo v r := by
  obtain ⟨fuel, h⟩ := h
  obtain ⟨x, hloop, hof⟩ := Option.bind_eq_some_iff.mp h
  exact ⟨fuel, by rw [stepRound, stepLoop_of_exact hloop, Option.map_some, stepOf_of_exact hof]⟩

theorem mul32_of_lt {x k : Nat} (h : x * k < 2 ^ 32) : mul32 x k = some (x * k) := if_pos h

theorem exactLoop_eq (n k : Nat) (hbelow : ∀ j < n, 10 ^ (k + j + 1) < v)
    (hstop : v ≤ 10 ^ (k + n + 1)) (hword : 10 ^ (k + n + 1) < 2 ^ 32) :
    exactLoop v (n + 1) (10 ^ k) = some (10 ^ (k + n)) := by
  induction n generalizing k with
  | zero =>
    have hmul : mul32 (10 ^ k) 10 = some (10 ^ (k + 1)) := mul32_of_lt hword
    rw [exactLoop, hmul, Option.bind_eq_bind, Option.bind_some, if_neg (Nat.not_lt.mpr hstop)]
    rfl
  | succ n ih =>
    have hfirst : 10 ^ (k + 1) < v := hbelow 0 (Nat.succ_pos n)
    have hshift : k + 1 + n = k + (n + 1) := by omega
    have hrest : ∀ j < n, 10 ^ (k + 1 + j + 1) < v := by
      intro j hj
      have hj := hbelow (j + 1) (by omega)
      rwa [show k + (j + 1) + 1 = k + 1 + j + 1 by omega] at hj
    have hmul : mul32 (10 ^ k) 10 = some (10 ^ (k + 1)) :=
      mul32_of_lt (hfirst.trans_le (hstop.trans hword.le))
    rw [← hshift] at hstop hword ⊢
    rw [exactLoop, hmul, Option.bind_eq_bind, Option.bind_some, if_pos hfirst]
    exact ih (k + 1) hrest hstop hword

/-- Above 10 ^ 9 the next power is formed, which does not fit. -/
theorem exactLoop_none (hv : 10 ^ 9 < v) (fuel : Nat) {k : Nat} (hk : k ≤ 9) :
    exactLoop v fuel (10 ^ k) = none := by
  induction fuel generalizing k with
  | zero => rfl
  | succ fuel ih =>
    rw [exactLoop]
    obtain rfl | hk := Nat.eq_or_lt_of_le hk
    · rfl
    · have hle : 10 ^ (k + 1) ≤ 10 ^ 9 := Nat.pow_le_pow_right (by decide) hk
      have hmul : mul32 (10 ^ k) 10 = some (10 ^ (k + 1)) := mul32_of_lt (hle.trans_lt (by decide))
      rw [hmul, Option.bind_eq_bind, Option.bind_some, if_pos (hle.trans_lt hv), ih hk]

theorem exactOf_eq {x : Nat} (hx : x ≤ 10 ^ 8) :
    exactOf v x = some (if v < x * 2 then x else if v < x * 5 then x * 2 else x * 5) := by
  rw [exactOf, mul32_of_lt (by omega), Option.bind_eq_bind, Option.bind_some,
    mul32_of_lt (by omega)]
  simp only [Option.bind_some]
  split
  · rfl
  · split <;> rfl

theorem roundsExactly_iff {r : Nat} : RoundsExactly v r ↔ v ≤ 10 ^ 9 ∧ r = decadeStep v := by
  constructor
  · intro h
    have hv : v ≤ 10 ^ 9 := by
      by_contra hnot
      obtain ⟨fuel, h⟩ := h
      have hloop : exactLoop v fuel (10 ^ 0) = none :=
        exactLoop_none (Nat.lt_of_not_le hnot) fuel (Nat.zero_le 9)
      rw [Nat.pow_zero] at hloop
      rw [exactRound, hloop] at h
      cases h
    have hbound : wrapped10 = 1410065408 := rfl
    exact ⟨hv, h.roundsTo.unique (roundsTo_decadeStep (by omega))⟩
  · rintro ⟨hv, rfl⟩
    obtain ⟨n, hn⟩ : ∃ n, n = Nat.clog 10 v - 1 := ⟨_, rfl⟩
    have hn8 : n ≤ 8 := by
      have hclog : Nat.clog 10 v ≤ 9 := Nat.clog_le_of_le_pow hv
      omega
    have hloop := exactLoop_eq (v := v) n 0
      (fun j hj => Nat.pow_lt_of_lt_clog (by omega))
      ((Nat.le_pow_clog (by decide) v).trans (Nat.pow_le_pow_right (by decide) (by omega)))
      ((Nat.pow_le_pow_right (by decide) (show 0 + n + 1 ≤ 9 by omega)).trans_lt (by decide))
    have hpow : 10 ^ n ≤ 10 ^ 8 := Nat.pow_le_pow_right (by decide) hn8
    refine ⟨n + 1, ?_⟩
    rw [exactRound, ← Nat.pow_zero 10, hloop, Option.bind_some, Nat.zero_add, exactOf_eq hpow, hn]
    rfl

end Exact

section Greatest

variable {v : Nat}

theorem oneTwoFive_decadeStep (v : Nat) : OneTwoFive (decadeStep v) := by
  refine ⟨Nat.clog 10 v - 1, ?_⟩
  rw [decadeStep]
  split
  · simp
  · split <;> simp

theorem isGreatest_decadeStep (hv : 1 ≤ v) :
    IsGreatest {n | OneTwoFive n ∧ n ≤ v} (decadeStep v) ↔ ∀ k, 1 ≤ k → v ≠ 10 ^ k := by
  have hbounds := decadeStep_bounds v
  constructor
  · rintro ⟨-, hgreatest⟩ k hk rfl
    have hle : 10 ^ k ≤ decadeStep (10 ^ k) := hgreatest ⟨⟨k, Or.inl rfl⟩, Nat.le_refl _⟩
    have hclog : Nat.clog 10 (10 ^ k) = k := Nat.clog_pow 10 k (by decide)
    have hpow : 10 ^ k = 10 ^ (k - 1) * 10 := by
      rw [← Nat.pow_succ, Nat.succ_eq_add_one, Nat.sub_add_cancel hk]
    have hpos : 0 < 10 ^ (k - 1) := Nat.pow_pos (by decide)
    unfold decadeStep at hle
    simp only [hclog] at hle
    split at hle
    · omega
    · split at hle <;> omega
  · intro hne
    refine ⟨⟨oneTwoFive_decadeStep v, by omega⟩, ?_⟩
    rintro n ⟨⟨j, hj⟩, hn⟩
    obtain rfl | hv1 := Nat.eq_or_lt_of_le hv
    · omega
    · obtain ⟨k, hk⟩ : ∃ k, k = Nat.clog 10 v - 1 := ⟨_, rfl⟩
      have hdecade := decade_bounds hv1
      rw [← hk] at hdecade
      have htop : v ≠ 10 ^ k * 10 := by
        have hsucc := hne (k + 1) (Nat.succ_pos k)
        rwa [Nat.pow_succ] at hsucc
      have hcases : j < k ∨ j = k := by
        by_contra hnot
        have hpow : 10 ^ (k + 1) ≤ 10 ^ j := Nat.pow_le_pow_right (by decide) (by omega)
        rw [Nat.pow_succ] at hpow
        omega
      unfold decadeStep
      simp only [← hk]
      obtain hlt | rfl := hcases
      · have hpow : 10 ^ (j + 1) ≤ 10 ^ k := Nat.pow_le_pow_right (by decide) hlt
        rw [Nat.pow_succ] at hpow
        split
        · omega
        · split <;> omega
      · split
        · omega
        · split <;> omega

end Greatest

/-- The function returns the largest step that does not exceed the value, without overflow. -/
def Meets (v : Nat) : Prop :=
  ∃ r, RoundsExactly v r ∧ RoundsTo v r ∧ IsGreatest {n | OneTwoFive n ∧ n ≤ v} r

theorem step_round_meets_iff {v : Nat} (hv : 1 ≤ v) :
    Meets v ↔ v < 10 ^ 9 ∧ ∀ k, 1 ≤ k → v ≠ 10 ^ k := by
  constructor
  · rintro ⟨r, hexact, -, hgreatest⟩
    obtain ⟨hle, rfl⟩ := roundsExactly_iff.mp hexact
    have hne := (isGreatest_decadeStep hv).mp hgreatest
    exact ⟨Nat.lt_of_le_of_ne hle (hne 9 (by decide)), hne⟩
  · rintro ⟨hlt, hne⟩
    have hexact : RoundsExactly v (decadeStep v) := roundsExactly_iff.mpr ⟨hlt.le, rfl⟩
    exact ⟨_, hexact, hexact.roundsTo, (isGreatest_decadeStep hv).mpr hne⟩

theorem step_round_meets_iff_341 : 1 ≤ 341 ∧ Meets 341 := by
  refine ⟨by decide, (step_round_meets_iff (by decide)).mpr ⟨by decide, fun k hk h => ?_⟩⟩
  have hdvd : 10 ∣ 341 := by
    rw [h]
    exact Nat.pow_dvd_pow 10 hk
  omega

/-- 10 is rounded to 5. -/
theorem not_step_round_meets : 1 ≤ 10 ∧ stepRound 1 10 = some 5 ∧ ¬ Meets 10 := by
  refine ⟨by decide, rfl, ?_⟩
  rintro ⟨r, -, hround, -, hgreatest⟩
  obtain rfl : 5 = r := RoundsTo.unique ⟨1, rfl⟩ hround
  have hten : 10 ≤ 5 := hgreatest ⟨⟨1, Or.inl rfl⟩, Nat.le_refl 10⟩
  omega

end NanoVNA.StepDecades
