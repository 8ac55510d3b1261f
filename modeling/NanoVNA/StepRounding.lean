import Mathlib.Data.Nat.Log
import NanoVNA.SweepFrequency

namespace NanoVNA.StepRounding

open NanoVNA.Word32

/-! ### The steps of the lever: 1, 2 or 5 in a decade -/

/-- The decade of `step_round`; the multiplication wraps. -/
def stepLoop (v : Nat) : Nat → Nat → Option Nat
  | 0, _ => none
  | fuel + 1, x => if u32 (x * 10) < v then stepLoop v fuel (u32 (x * 10)) else some x

def stepOf (v x : Nat) : Nat :=
  if v < u32 (x * 2) then x
  else if v < u32 (x * 5) then u32 (x * 2)
  else u32 (x * 5)

def stepRound (fuel v : Nat) : Option Nat := (stepLoop v fuel 1).map (stepOf v)

def decadeStep (v : Nat) : Nat :=
  let x := 10 ^ (Nat.clog 10 v - 1)
  if v < x * 2 then x else if v < x * 5 then x * 2 else x * 5

example : stepRound 5 10942 = some 10000 ∧ stepRound 5 6791 = some 5000 ∧
    stepRound 5 341 = some 200 := by decide

def RoundsTo (v r : Nat) : Prop := ∃ fuel, stepRound fuel v = some r

section Loop

variable {v : Nat}

theorem stepLoop_mono {fuel x r : Nat} (h : stepLoop v fuel x = some r) {fuel' : Nat}
    (hle : fuel ≤ fuel') : stepLoop v fuel' x = some r := by
  induction fuel generalizing x fuel' with
  | zero => cases h
  | succ fuel ih =>
    obtain ⟨fuel', rfl⟩ : ∃ n, fuel' = n + 1 := ⟨fuel' - 1, by omega⟩
    rw [stepLoop] at h ⊢
    split
    next hlt =>
      rw [if_pos hlt] at h
      exact ih h (by omega)
    next hge =>
      rw [if_neg hge] at h
      exact h

theorem RoundsTo.unique {r r' : Nat} (h : RoundsTo v r) (h' : RoundsTo v r') : r = r' := by
  obtain ⟨fuel, h⟩ := h
  obtain ⟨fuel', h'⟩ := h'
  obtain ⟨x, hloop, h⟩ := Option.map_eq_some_iff.mp h
  obtain ⟨x', hloop', h'⟩ := Option.map_eq_some_iff.mp h'
  have hmax := stepLoop_mono hloop (Nat.le_max_left fuel fuel')
  have hmax' := stepLoop_mono hloop' (Nat.le_max_right fuel fuel')
  obtain rfl : x = x' := Option.some.inj (hmax.symm.trans hmax')
  exact h.symm.trans h'

theorem u32_pow_succ (k : Nat) : u32 (u32 (10 ^ k) * 10) = u32 (10 ^ (k + 1)) := by
  have hpow : 10 ^ (k + 1) = 10 ^ k * 10 := Nat.pow_succ 10 k
  rw [hpow, u32, u32, u32, Nat.mod_mul_mod]

/-- The loop runs through the powers of ten below the value, wrapped ones as well. -/
theorem stepLoop_below (fuel n k : Nat) (hbelow : ∀ j < n, u32 (10 ^ (k + j + 1)) < v) :
    stepLoop v (fuel + n) (u32 (10 ^ k)) = stepLoop v fuel (u32 (10 ^ (k + n))) := by
  induction n generalizing k with
  | zero => rfl
  | succ n ih =>
    have hfirst : u32 (10 ^ (k + 1)) < v := hbelow 0 (Nat.succ_pos n)
    have hrest : ∀ j < n, u32 (10 ^ (k + 1 + j + 1)) < v := by
      intro j hj
      have hj := hbelow (j + 1) (by omega)
      rwa [show k + (j + 1) + 1 = k + 1 + j + 1 by omega] at hj
    rw [← Nat.add_assoc, stepLoop, u32_pow_succ, if_pos hfirst, ih (k + 1) hrest]
    congr 3
    omega

theorem stepLoop_eq {n : Nat} (hbelow : ∀ j < n, u32 (10 ^ (j + 1)) < v)
    (hstop : v ≤ u32 (10 ^ (n + 1))) : stepLoop v (n + 1) 1 = some (u32 (10 ^ n)) := by
  have hrun := stepLoop_below (v := v) 1 n 0 fun j hj => by simpa using hbelow j hj
  have hone : u32 (10 ^ 0) = 1 := rfl
  rw [hone, Nat.zero_add, Nat.add_comm] at hrun
  rw [hrun, stepLoop, u32_pow_succ, if_neg (Nat.not_lt.mpr hstop)]

theorem roundsTo_of {n : Nat} (hbelow : ∀ j < n, u32 (10 ^ (j + 1)) < v)
    (hstop : v ≤ u32 (10 ^ (n + 1))) : RoundsTo v (stepOf v (u32 (10 ^ n))) :=
  ⟨n + 1, by rw [stepRound, stepLoop_eq hbelow hstop, Option.map_some]⟩

theorem not_roundsTo (habove : ∀ j, u32 (10 ^ (j + 1)) < v) (r : Nat) : ¬ RoundsTo v r := by
  rintro ⟨fuel, h⟩
  obtain ⟨x, hloop, -⟩ := Option.map_eq_some_iff.mp h
  have hrun := stepLoop_below (v := v) 0 fuel 0 fun j _ => by simpa using habove j
  rw [Nat.zero_add] at hrun
  have hone : u32 (10 ^ 0) = 1 := rfl
  rw [hone, hloop] at hrun
  cases hrun

end Loop

section Decades

variable {v : Nat}

theorem decade_bounds (hv : 1 < v) :
    10 ^ (Nat.clog 10 v - 1) < v ∧ v ≤ 10 ^ (Nat.clog 10 v - 1) * 10 := by
  have hpos := Nat.clog_pos (b := 10) (by decide) hv
  refine ⟨Nat.pow_pred_clog_lt_self (by decide) hv, ?_⟩
  rw [← Nat.pow_succ, Nat.succ_eq_add_one, Nat.sub_add_cancel hpos]
  exact Nat.le_pow_clog (by decide) v

theorem decadeStep_bounds (v : Nat) : 2 * v ≤ 5 * decadeStep v ∧ decadeStep v ≤ max v 1 := by
  obtain hv | hv := Nat.lt_or_ge 1 v
  · have hdecade := decade_bounds hv
    rw [decadeStep]
    split
    · omega
    · split <;> omega
  · have hstep : decadeStep v = 1 := by
      have hcases : v = 0 ∨ v = 1 := by omega
      obtain rfl | rfl := hcases <;> rfl
    omega

theorem decadeStep_pos (v : Nat) : 0 < decadeStep v := by
  have hbounds := decadeStep_bounds v
  obtain rfl | hv := Nat.eq_zero_or_pos v
  · decide
  · omega

theorem decadeStep_dvd {k : Nat} (hv : 10 ^ k < v) : 10 ^ k ∣ decadeStep v := by
  have hlt : k < Nat.clog 10 v := (Nat.lt_clog_iff_pow_lt (by decide)).mpr hv
  have hdvd : 10 ^ k ∣ 10 ^ (Nat.clog 10 v - 1) := Nat.pow_dvd_pow 10 (by omega)
  rw [decadeStep]
  split
  · exact hdvd
  · split
    · exact Nat.dvd_mul_right_of_dvd hdvd 2
    · exact Nat.dvd_mul_right_of_dvd hdvd 5

theorem decadeStep_small : decadeStep v < 600 ↔ v ≤ 1000 := by
  constructor
  · intro h
    by_contra hv
    have hdvd := decadeStep_dvd (k := 3) (v := v) (by omega)
    have hbounds := decadeStep_bounds v
    have hle := Nat.le_of_dvd (by omega) hdvd
    omega
  · intro hv
    obtain hv1 | hv1 := Nat.lt_or_ge 1 v
    · have hclog : Nat.clog 10 v ≤ 3 := Nat.clog_le_of_le_pow hv
      have hle : 10 ^ (Nat.clog 10 v - 1) ≤ 10 ^ 2 := Nat.pow_le_pow_right (by decide) (by omega)
      rw [decadeStep]
      split
      · omega
      · split <;> omega
    · have hbounds := decadeStep_bounds v
      omega

/-- The wrapped power behind 10 ^ 9 is the first that is too small for the value. -/
def wrapped10 : Nat := 1410065408

theorem roundsTo_decadeStep (hv : v ≤ wrapped10) : RoundsTo v (decadeStep v) := by
  have hbound : wrapped10 = 1410065408 := rfl
  obtain ⟨n, hn⟩ : ∃ n, n = Nat.clog 10 v - 1 := ⟨_, rfl⟩
  have hn9 : n ≤ 9 := by
    have hclog : Nat.clog 10 v ≤ 10 := Nat.clog_le_of_le_pow (by omega)
    omega
  have hpow : 10 ^ n ≤ 10 ^ 9 := Nat.pow_le_pow_right (by decide) hn9
  have hbelow : ∀ j < n, u32 (10 ^ (j + 1)) < v := by
    intro j hj
    have hlt : 10 ^ (j + 1) < v := Nat.pow_lt_of_lt_clog (by omega)
    rwa [u32_of_lt (by omega)]
  have hle : v ≤ 10 ^ (n + 1) :=
    (Nat.le_pow_clog (by decide) v).trans (Nat.pow_le_pow_right (by decide) (by omega))
  have hstop : v ≤ u32 (10 ^ (n + 1)) := by
    obtain hn8 | rfl : n ≤ 8 ∨ n = 9 := by omega
    · have hpow8 : 10 ^ (n + 1) ≤ 10 ^ 9 := Nat.pow_le_pow_right (by decide) (by omega)
      rwa [u32_of_lt (by omega)]
    · exact hv
  have hround := roundsTo_of hbelow hstop
  have hstep : stepOf v (10 ^ n) = decadeStep v := by
    rw [stepOf, decadeStep, ← hn, u32_of_lt (n := 10 ^ n * 2) (by omega)]
    split
    · rfl
    next htwice =>
      -- a decade of 10 ^ 9 is more than half of the value
      have hn8 : n ≤ 8 := by
        by_contra h9
        obtain rfl : n = 9 := by omega
        omega
      have hpow8 : 10 ^ n ≤ 10 ^ 8 := Nat.pow_le_pow_right (by decide) hn8
      rw [u32_of_lt (n := 10 ^ n * 5) (by omega)]
  rwa [u32_of_lt (by omega), hstep] at hround

/-- Above that value the step comes from a wrapped power, of which two are passed on as a
frequency. -/
theorem roundsTo_first (hv : wrapped10 < v) (hv' : v ≤ 3567587328) :
    RoundsTo v 1215752192 ∨ RoundsTo v 1783793664 := by
  have hbound : wrapped10 = 1410065408 := rfl
  have hbelow : ∀ j < 11, u32 (10 ^ (j + 1)) < v := by
    have htable : ∀ j < 11, u32 (10 ^ (j + 1)) ≤ wrapped10 := by decide
    exact fun j hj => (htable j hj).trans_lt hv
  have hround : RoundsTo v (stepOf v 1215752192) := roundsTo_of hbelow hv'
  have htwice : u32 (1215752192 * 2) = 2431504384 := rfl
  have hfive : u32 (1215752192 * 5) = 1783793664 := rfl
  rw [stepOf, htwice, hfive] at hround
  split at hround
  · exact Or.inl hround
  · rw [if_neg (by omega)] at hround
    exact Or.inr hround

theorem roundsTo_skipped (hv : 3567587328 < v) (hv' : v ≤ 3735027712) : RoundsTo v 3323985920 := by
  have hbelow : ∀ j < 20, u32 (10 ^ (j + 1)) < v := by
    have htable : ∀ j < 20, u32 (10 ^ (j + 1)) ≤ 3567587328 := by decide
    exact fun j hj => (htable j hj).trans_lt hv
  have hround : RoundsTo v (stepOf v 1661992960) := roundsTo_of hbelow hv'
  have htwice : u32 (1661992960 * 2) = 3323985920 := rfl
  have hfive : u32 (1661992960 * 5) = 4014997504 := rfl
  rwa [stepOf, htwice, hfive, if_neg (by omega), if_pos (by omega)] at hround

theorem roundsTo_second (hv : 3735027712 < v) (hv' : v ≤ 4135583744) : RoundsTo v 2067791872 := by
  have hbelow : ∀ j < 22, u32 (10 ^ (j + 1)) < v := by
    have htable : ∀ j < 22, u32 (10 ^ (j + 1)) ≤ 3735027712 := by decide
    exact fun j hj => (htable j hj).trans_lt hv
  have hround : RoundsTo v (stepOf v 2990538752) := roundsTo_of hbelow hv'
  have htwice : u32 (2990538752 * 2) = 1686110208 := rfl
  have hfive : u32 (2990538752 * 5) = 2067791872 := rfl
  rwa [stepOf, htwice, hfive, if_neg (by omega), if_neg (by omega)] at hround

theorem not_roundsTo_above (hv : 4135583744 < v) (r : Nat) : ¬ RoundsTo v r := by
  refine not_roundsTo (fun j => ?_) r
  obtain hj | hj := Nat.lt_or_ge j 31
  · have htable : ∀ j < 31, u32 (10 ^ (j + 1)) ≤ 4135583744 := by decide
    exact (htable j hj).trans_lt hv
  · have hdvd : 2 ^ 32 ∣ 10 ^ (j + 1) :=
      Nat.dvd_trans (by decide) (Nat.pow_dvd_pow 10 (Nat.succ_le_succ hj))
    rw [u32, Nat.mod_eq_zero_of_dvd hdvd]
    omega

end Decades

end NanoVNA.StepRounding
