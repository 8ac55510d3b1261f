import Mathlib.Algebra.BigOperators.Ring.Finset
import Mathlib.Algebra.Order.Ring.Nat
import Mathlib.Data.Nat.Bitwise
import Mathlib.Logic.Function.Basic
import Mathlib.RingTheory.RootsOfUnity.PrimitiveRoots
import Mathlib.Tactic.LinearCombination
import Mathlib.Tactic.Ring

namespace NanoVNA.RadixTwo

section Reversal

/-- The number whose `levels` low bits are those of `i` in reverse order. -/
def bitReverse : Nat → Nat → Nat
  | 0, _ => 0
  | levels + 1, i => 2 ^ levels * (i % 2) + bitReverse levels (i / 2)

theorem bitReverse_lt (levels i : Nat) : bitReverse levels i < 2 ^ levels := by
  induction levels generalizing i with
  | zero => exact Nat.one_pos
  | succ levels ih =>
    have hrest := ih (i / 2)
    obtain hbit | hbit := Nat.mod_two_eq_zero_or_one i
    · rw [bitReverse, hbit, pow_succ]
      omega
    · rw [bitReverse, hbit, pow_succ]
      omega

theorem bitReverse_two_mul (levels i : Nat) :
    bitReverse (levels + 1) (2 * i) = bitReverse levels i := by
  have hbit : 2 * i % 2 = 0 := by omega
  have hrest : 2 * i / 2 = i := by omega
  rw [bitReverse, hbit, hrest, mul_zero, zero_add]

theorem bitReverse_two_mul_add_one (levels i : Nat) :
    bitReverse (levels + 1) (2 * i + 1) = bitReverse levels i + 2 ^ levels := by
  have hbit : (2 * i + 1) % 2 = 1 := by omega
  have hrest : (2 * i + 1) / 2 = i := by omega
  rw [bitReverse, hbit, hrest, mul_one, add_comm]

theorem testBit_bitReverse (levels i j : Nat) :
    (bitReverse levels i).testBit j = (decide (j < levels) && i.testBit (levels - 1 - j)) := by
  induction levels generalizing i with
  | zero => simp [bitReverse]
  | succ levels ih =>
    rw [bitReverse, Nat.testBit_two_pow_mul_add _ (bitReverse_lt levels _)]
    by_cases hj : j < levels
    · have hshift : levels + 1 - 1 - j = levels - 1 - j + 1 := by omega
      rw [if_pos hj, ih, hshift, Nat.testBit_succ]
      simp [hj, Nat.lt_succ_of_lt hj]
    · rw [if_neg hj]
      by_cases htop : j = levels
      · subst htop
        simp [Nat.testBit_zero]
      · have hpast : ¬ j < levels + 1 := by omega
        have hbit : i % 2 < 2 ^ (j - levels) :=
          lt_of_lt_of_le (Nat.mod_lt i Nat.two_pos)
            (Nat.le_self_pow (by omega) 2)
        simp [hpast, Nat.testBit_lt_two_pow hbit]

theorem bitReverse_bitReverse {levels i : Nat} (h : i < 2 ^ levels) :
    bitReverse levels (bitReverse levels i) = i := by
  apply Nat.eq_of_testBit_eq
  intro j
  rw [testBit_bitReverse]
  by_cases hj : j < levels
  · have hmirror : levels - 1 - j < levels := by omega
    have hback : levels - 1 - (levels - 1 - j) = j := by omega
    simp [testBit_bitReverse, hj, hmirror, hback]
  · have hbig : i < 2 ^ j := lt_of_lt_of_le h (Nat.pow_le_pow_right Nat.two_pos (by omega))
    simp [hj, Nat.testBit_lt_two_pow hbig]

end Reversal

section Swaps

variable {α : Type} (f : Nat → Nat)

def swapEntries (i j : Nat) (a : Nat → α) : Nat → α :=
  Function.update (Function.update a i (a j)) j (a i)

def swapUp (a : Nat → α) (i : Nat) : Nat → α := if i < f i then swapEntries i (f i) a else a

theorem swapEntries_apply (i j : Nat) (a : Nat → α) (p : Nat) :
    swapEntries i j a p = if p = j then a i else if p = i then a j else a p := by
  simp only [swapEntries, Function.update_apply]

theorem foldl_swapUp {n : Nat} (hlt : ∀ i < n, f i < n) (hf : ∀ i < n, f (f i) = i)
    (a : Nat → α) (m : Nat) (hm : m ≤ n) (p : Nat) (hp : p < n) :
    (List.range m).foldl (swapUp f) a p = if p < m ∨ f p < m then a (f p) else a p := by
  induction m generalizing p with
  | zero => simp
  | succ m ih =>
    have hfm := hf m (by omega)
    have hfp := hf p hp
    have hltm := hlt m (by omega)
    have hback : f p = m → p = f m := fun h => by rw [← h, hfp]
    simp only [List.range_succ, List.foldl_append, List.foldl_cons, List.foldl_nil]
    by_cases hup : m < f m
    · rw [swapUp, if_pos hup, swapEntries_apply]
      by_cases h1 : p = f m
      · have hmoved : p < m + 1 ∨ f p < m + 1 := by
          rw [h1, hfm]
          omega
        rw [if_pos h1, ih (by omega) m (by omega), if_neg (by omega), if_pos hmoved, h1, hfm]
      · rw [if_neg h1]
        by_cases h2 : p = m
        · rw [if_pos h2, ih (by omega) (f m) hltm, if_neg (by omega), if_pos (by omega), h2]
        · have hne : f p ≠ m := fun h => h1 (hback h)
          have hiff : (p < m ∨ f p < m) ↔ (p < m + 1 ∨ f p < m + 1) := by omega
          rw [if_neg h2, ih (by omega) p hp, if_congr hiff rfl rfl]
    · rw [swapUp, if_neg hup, ih (by omega) p hp]
      by_cases h2 : p = m
      · subst h2
        rw [if_pos (show p < p + 1 ∨ f p < p + 1 by omega)]
        split_ifs with hdown
        · rfl
        · rw [show f p = p by omega]
      · have hiff : (p < m ∨ f p < m) ↔ (p < m + 1 ∨ f p < m + 1) := by
          constructor
          · omega
          · intro h
            by_cases hm' : f p = m
            · have := hback hm'
              omega
            · omega
        rw [if_congr hiff rfl rfl]

end Swaps

section Passes

variable {R : Type} [CommRing R]

/-- Two entries become their sum and their difference, the second one turned before. -/
def butterfly (w : R) (k l : Nat) (a : Nat → R) : Nat → R :=
  Function.update (Function.update a l (a k - w * a l)) k (a k + w * a l)

theorem butterfly_apply (w : R) (k l : Nat) (a : Nat → R) (p : Nat) :
    butterfly w k l a p =
      if p = k then a k + w * a l else if p = l then a k - w * a l else a p := by
  simp only [butterfly, Function.update_apply]

variable (w : Nat → R) (h : Nat)

/-- The first `count` butterflies of the block of `2 * h` entries from `i` on. -/
def block (count i : Nat) (a : Nat → R) : Nat → R :=
  (List.range count).foldl (fun a j => butterfly (w j) (i + j) (i + j + h) a) a

def radixPass (blocks : Nat) (a : Nat → R) : Nat → R :=
  (List.range blocks).foldl (fun a b => block w h h (b * (2 * h)) a) a

variable {w h}

theorem block_apply {count : Nat} (hcount : count ≤ h) (i : Nat) (a : Nat → R) (p : Nat) :
    block w h count i a p =
      if i ≤ p ∧ p < i + count then a p + w (p - i) * a (p + h)
      else if i + h ≤ p ∧ p < i + h + count then a (p - h) - w (p - h - i) * a p
      else a p := by
  induction count generalizing p with
  | zero =>
    rw [if_neg (by omega), if_neg (by omega)]
    rfl
  | succ count ih =>
    have hstep : block w h (count + 1) i a =
        butterfly (w count) (i + count) (i + count + h) (block w h count i a) := by
      simp [block, List.range_succ]
    have hk : block w h count i a (i + count) = a (i + count) := by
      rw [ih (by omega), if_neg (by omega), if_neg (by omega)]
    have hl : block w h count i a (i + count + h) = a (i + count + h) := by
      rw [ih (by omega), if_neg (by omega), if_neg (by omega)]
    rw [hstep, butterfly_apply, hk, hl]
    by_cases h1 : p = i + count
    · have hj : p - i = count := by omega
      rw [if_pos h1, if_pos (by omega), hj, h1]
    · rw [if_neg h1]
      by_cases h2 : p = i + count + h
      · have hj : p - h - i = count := by omega
        have hp : p - h = i + count := by omega
        rw [if_pos h2, if_neg (by omega), if_pos (by omega), hj, hp, h2]
      · have hlow : (i ≤ p ∧ p < i + count) ↔ (i ≤ p ∧ p < i + (count + 1)) := by omega
        have hhigh : (i + h ≤ p ∧ p < i + h + count) ↔ (i + h ≤ p ∧ p < i + h + (count + 1)) := by
          omega
        rw [if_neg h2, ih (by omega), if_congr hlow rfl (if_congr hhigh rfl rfl)]

theorem radixPass_succ (blocks : Nat) (a : Nat → R) :
    radixPass w h (blocks + 1) a = block w h h (blocks * (2 * h)) (radixPass w h blocks a) := by
  simp [radixPass, List.range_succ]

theorem radixPass_past {blocks p : Nat} (hp : blocks * (2 * h) ≤ p) (a : Nat → R) :
    radixPass w h blocks a p = a p := by
  induction blocks with
  | zero => rfl
  | succ blocks ih =>
    rw [Nat.succ_mul] at hp
    rw [radixPass_succ, block_apply le_rfl, if_neg (by omega), if_neg (by omega), ih (by omega)]

theorem radixPass_apply {blocks b j : Nat} (hb : b < blocks) (hj : j < h) (a : Nat → R) :
    radixPass w h blocks a (b * (2 * h) + j) =
        a (b * (2 * h) + j) + w j * a (b * (2 * h) + j + h) ∧
      radixPass w h blocks a (b * (2 * h) + j + h) =
        a (b * (2 * h) + j) - w j * a (b * (2 * h) + j + h) := by
  induction blocks with
  | zero => omega
  | succ blocks ih =>
    rw [radixPass_succ]
    by_cases hlast : b = blocks
    · subst hlast
      have hlow : b * (2 * h) + j - b * (2 * h) = j := by omega
      have hhigh : b * (2 * h) + j + h - h = b * (2 * h) + j := by omega
      constructor
      · rw [block_apply le_rfl, if_pos (by omega), hlow, radixPass_past (by omega),
          radixPass_past (by omega)]
      · rw [block_apply le_rfl, if_neg (by omega), if_pos (by omega), hhigh, hlow,
          radixPass_past (by omega), radixPass_past (by omega)]
    · have hle : (b + 1) * (2 * h) ≤ blocks * (2 * h) := Nat.mul_le_mul_right _ (by omega)
      rw [Nat.succ_mul] at hle
      rw [block_apply le_rfl, if_neg (by omega), if_neg (by omega), block_apply le_rfl,
        if_neg (by omega), if_neg (by omega)]
      exact ih (by omega)

end Passes

section Transform

variable {R : Type} [CommRing R]

/-- The discrete Fourier transform of `n` entries at the root `ω`. -/
def dft (ω : R) (n : Nat) (x : Nat → R) (k : Nat) : R :=
  ∑ m ∈ Finset.range n, x m * ω ^ (m * k)

/-- With `s` of its `t + s` passes done, the array holds the transforms of `2 ^ s` entries of the
subsequences of step `2 ^ t`, in the order of their reversed indices. -/
def Stage (ω : R) (x : Nat → R) (t s : Nat) (a : Nat → R) : Prop :=
  ∀ b < 2 ^ t, ∀ k < 2 ^ s,
    a (b * 2 ^ s + k) = dft (ω ^ 2 ^ t) (2 ^ s) (fun m => x (bitReverse t b + m * 2 ^ t)) k

/-- The remaining passes, when `t` of them are left and the blocks have grown to `2 ^ s`. -/
def passes (ω : R) : Nat → Nat → (Nat → R) → Nat → R
  | 0, _, a => a
  | t + 1, s, a => passes ω t (s + 1) (radixPass (fun j => ω ^ (j * 2 ^ t)) (2 ^ s) (2 ^ t) a)

theorem dft_even_odd (ω : R) (n : Nat) (x : Nat → R) (k : Nat) :
    dft ω (n * 2) x k =
      dft (ω ^ 2) n (fun m => x (2 * m)) k + ω ^ k * dft (ω ^ 2) n (fun m => x (2 * m + 1)) k := by
  unfold dft
  induction n with
  | zero => simp
  | succ n ih =>
    rw [Nat.succ_mul, Finset.sum_range_succ, Finset.sum_range_succ, ih, Finset.sum_range_succ,
      Finset.sum_range_succ]
    have hpow : (ω ^ 2) ^ (n * k) = ω ^ (n * 2 * k) := by
      rw [← pow_mul]
      ring_nf
    rw [hpow, mul_comm n 2]
    ring

theorem dft_add_period {ω : R} {n : Nat} (h : ω ^ n = 1) (x : Nat → R) (k : Nat) :
    dft ω n x (k + n) = dft ω n x k := by
  refine Finset.sum_congr rfl fun m _ => ?_
  rw [mul_add, pow_add, mul_comm m n, pow_mul ω n m, h, one_pow, mul_one]

theorem stage_zero {ω : R} {x a : Nat → R} {levels : Nat}
    (h : ∀ b < 2 ^ levels, a b = x (bitReverse levels b)) : Stage ω x levels 0 a := by
  intro b hb k hk
  obtain rfl : k = 0 := by simpa using hk
  simp [dft, h b hb]

/-- The induction step of the divide and conquer. -/
theorem stage_pass {ω : R} {x a : Nat → R} {t s : Nat} (h : Stage ω x (t + 1) s a)
    (hhalf : ω ^ (2 ^ t * 2 ^ s) = -1) :
    Stage ω x t (s + 1) (radixPass (fun j => ω ^ (j * 2 ^ t)) (2 ^ s) (2 ^ t) a) := by
  have hw : (ω ^ 2 ^ t) ^ 2 = ω ^ 2 ^ (t + 1) := by rw [← pow_mul, pow_succ]
  have hsize : 2 ^ (s + 1) = 2 * 2 ^ s := pow_succ' 2 s
  have hstart : ∀ b, b * (2 * 2 ^ s) = 2 * b * 2 ^ s := fun b => by ring
  intro b hb k hk
  have hb2 : 2 * b + 1 < 2 ^ (t + 1) := by
    rw [pow_succ]
    omega
  -- the two halves of the block hold the even and the odd entries of its subsequence
  have heven : ∀ j < 2 ^ s, a (b * (2 * 2 ^ s) + j) =
      dft (ω ^ 2 ^ (t + 1)) (2 ^ s) (fun m => x (bitReverse t b + 2 * m * 2 ^ t)) j := by
    intro j hj
    rw [hstart, h (2 * b) (by omega) j hj, bitReverse_two_mul]
    congr 1
    funext m
    congr 1
    ring
  have hodd : ∀ j < 2 ^ s, a (b * (2 * 2 ^ s) + j + 2 ^ s) =
      dft (ω ^ 2 ^ (t + 1)) (2 ^ s) (fun m => x (bitReverse t b + (2 * m + 1) * 2 ^ t)) j := by
    intro j hj
    have hindex : b * (2 * 2 ^ s) + j + 2 ^ s = (2 * b + 1) * 2 ^ s + j := by ring
    rw [hindex, h (2 * b + 1) hb2 j hj, bitReverse_two_mul_add_one]
    congr 1
    funext m
    congr 1
    ring
  have hsplit : ∀ j, dft (ω ^ 2 ^ t) (2 ^ (s + 1)) (fun m => x (bitReverse t b + m * 2 ^ t)) j =
      dft (ω ^ 2 ^ (t + 1)) (2 ^ s) (fun m => x (bitReverse t b + 2 * m * 2 ^ t)) j +
        (ω ^ 2 ^ t) ^ j *
          dft (ω ^ 2 ^ (t + 1)) (2 ^ s) (fun m => x (bitReverse t b + (2 * m + 1) * 2 ^ t)) j := by
    intro j
    rw [pow_succ 2 s, dft_even_odd, hw]
  have hturn : ∀ j, ω ^ (j * 2 ^ t) = (ω ^ 2 ^ t) ^ j := fun j => by rw [mul_comm, pow_mul]
  obtain hj | hj := Nat.lt_or_ge k (2 ^ s)
  · rw [hsize, (radixPass_apply hb hj a).1, heven k hj, hodd k hj, ← hsize, hsplit, hturn]
  · obtain ⟨j, rfl⟩ := Nat.exists_eq_add_of_le' hj
    have hjlt : j < 2 ^ s := by omega
    have hperiod : (ω ^ 2 ^ (t + 1)) ^ 2 ^ s = 1 := by
      rw [← pow_mul, pow_succ, mul_right_comm, pow_mul, hhalf]
      ring
    have hneg : (ω ^ 2 ^ t) ^ (j + 2 ^ s) = -(ω ^ 2 ^ t) ^ j := by
      rw [pow_add, ← pow_mul ω (2 ^ t) (2 ^ s), hhalf, mul_neg_one]
    rw [hsize, ← add_assoc, (radixPass_apply hb hjlt a).2, heven j hjlt, hodd j hjlt, ← hsize, hsplit,
      dft_add_period hperiod, dft_add_period hperiod, hturn, hneg]
    ring

/-- Decimation in time: after the reordering the passes compute the transform. -/
theorem passes_stage {ω : R} {x : Nat → R} {t s : Nat} {a : Nat → R} (h : Stage ω x t s a)
    (hhalf : 0 < t → ω ^ 2 ^ (t + s - 1) = -1) {k : Nat} (hk : k < 2 ^ (t + s)) :
    passes ω t s a k = dft ω (2 ^ (t + s)) x k := by
  induction t generalizing s a with
  | zero =>
    rw [zero_add] at hk ⊢
    have := h 0 Nat.one_pos k hk
    simpa [bitReverse, passes] using this
  | succ t ih =>
    have hpow := hhalf (by omega)
    have hsum : t + 1 + s = t + (s + 1) := by omega
    have hlast : t + 1 + s - 1 = t + s := by omega
    rw [hlast, pow_add] at hpow
    rw [hsum] at hk ⊢
    refine ih (stage_pass h hpow) (fun _ => ?_) hk
    rw [show t + (s + 1) - 1 = t + s by omega, pow_add]
    exact hpow

end Transform

section Inversion

variable {R : Type} [CommRing R] [IsDomain R]

theorem geom_sum_root {ζ : R} {n : Nat} (hpow : ζ ^ n = 1) (hne : ζ ≠ 1) :
    ∑ k ∈ Finset.range n, ζ ^ k = 0 := by
  have h := mul_neg_geom_sum ζ n
  rw [hpow, sub_self] at h
  exact (mul_eq_zero.mp h).resolve_left (sub_ne_zero.mpr (Ne.symm hne))

/-- The transform at the inverse root undoes the transform, up to the factor `n`. -/
theorem dft_dft {ω ψ : R} {n : Nat} (hω : IsPrimitiveRoot ω n) (hψ : ω * ψ = 1) (x : Nat → R)
    {p : Nat} (hp : p < n) : dft ψ n (dft ω n x) p = n * x p := by
  have hroot : ∀ m < n,
      ∑ k ∈ Finset.range n, (ω ^ m * ψ ^ p) ^ k = if m = p then (n : R) else 0 := by
    intro m hm
    split_ifs with hmp
    · rw [hmp, ← mul_pow, hψ, one_pow]
      simp
    · refine geom_sum_root ?_ fun hone => hmp ?_
      · have hψn : ψ ^ n = 1 := by
          have := congrArg (· ^ n) hψ
          simpa [mul_pow, hω.pow_eq_one] using this
        rw [mul_pow, ← pow_mul, mul_comm m n, pow_mul, hω.pow_eq_one, one_pow, ← pow_mul,
          mul_comm p n, pow_mul, hψn, one_pow, one_mul]
      · apply hω.pow_inj hm hp
        have := congrArg (· * ω ^ p) hone
        simpa [mul_assoc, ← mul_pow, mul_comm ψ ω, hψ] using this
  calc dft ψ n (dft ω n x) p
      = ∑ k ∈ Finset.range n, ∑ m ∈ Finset.range n, x m * (ω ^ m * ψ ^ p) ^ k := by
        refine Finset.sum_congr rfl fun k _ => ?_
        rw [dft, Finset.sum_mul]
        refine Finset.sum_congr rfl fun m _ => ?_
        rw [mul_pow, ← pow_mul, ← pow_mul, mul_comm k p, mul_assoc]
    _ = ∑ m ∈ Finset.range n, x m * ∑ k ∈ Finset.range n, (ω ^ m * ψ ^ p) ^ k := by
        rw [Finset.sum_comm]
        exact Finset.sum_congr rfl fun m _ => (Finset.mul_sum _ _ _).symm
    _ = ∑ m ∈ Finset.range n, if m = p then x m * n else 0 := by
        refine Finset.sum_congr rfl fun m hm => ?_
        rw [hroot m (Finset.mem_range.mp hm), mul_ite, mul_zero]
    _ = n * x p := by
        rw [Finset.sum_ite_eq' (Finset.range n) p, if_pos (Finset.mem_range.mpr hp), mul_comm]

end Inversion

end NanoVNA.RadixTwo
