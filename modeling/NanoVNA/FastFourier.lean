import Mathlib.Analysis.SpecialFunctions.Trigonometric.Basic
import Mathlib.RingTheory.RootsOfUnity.Complex
import NanoVNA.CalibrationComplex
import NanoVNA.GuardedRun
import NanoVNA.RadixTwo
import NanoVNA.SinCosTable

namespace NanoVNA.FastFourier

open NanoVNA.DeviceState NanoVNA.RadixTwo NanoVNA.GuardedRun
open NanoVNA.SinCosTable (quarterSteps)
open NanoVNA.CalibrationComplex (toComplex)

variable (b : Board)

def fftN : Board → Nat
  | .f072 => 8
  | .f303 => 10

def fftSize : Nat := 2 ^ fftN b

def fftQ : Nat := fftSize b / 4

def fftH : Nat := fftSize b / 2

def fftTableScale : Nat := quarterSteps b / fftQ b

section Reordering

/-- One round of the loop of `reverse_bits`, on the result and what is left of the argument. -/
def reverseStep (s : Nat × Nat) : Nat × Nat := ((s.1 * 2 ||| s.2 % 2) % 65536, s.2 / 2)

def reverseBitsLoop (x n : Nat) : Nat := (reverseStep^[n] (0, x)).1

/-- The instruction `rbit` reverses all 32 bits. -/
def reverseBitsRbit (x n : Nat) : Nat := bitReverse 32 x / 2 ^ (32 - n)

def reverseBits : Board → Nat → Nat → Nat
  | .f072 => reverseBitsLoop
  | .f303 => reverseBitsRbit

def reorder {α : Type} (a : Nat → α) : Nat → α :=
  (List.range (fftSize b)).foldl (swapUp fun i => reverseBits b i (fftN b)) a

end Reordering

section Code

variable {K : Type} [Ring K] (table : Nat → K)

/-- The array `sin_table_qtr`; it has no other entries. -/
def sinTableQtr (i : Int) : Option K :=
  if 0 ≤ i ∧ i < quarterSteps b + 1 then some (table i.toNat) else none

def fftSin (i : Nat) : Option K :=
  if fftQ b < i then sinTableQtr b table (((fftH b : Int) - i) * fftTableScale b)
  else sinTableQtr b table (i * fftTableScale b)

def fftCos (i : Nat) : Option K :=
  if fftQ b < i then (sinTableQtr b table (((i : Int) - fftQ b) * fftTableScale b)).map Neg.neg
  else sinTableQtr b table (((fftQ b : Int) - i) * fftTableScale b)

def turn (dir : Bool) (tablestep halfsize i : Nat) (a : Nat → Sample K) (j : Nat) :
    Option (Nat → Sample K) := do
  let k := i + j
  let l := k + halfsize
  let wIndex := j * tablestep
  let sn ← fftSin b table wIndex
  let c ← fftCos b table wIndex
  let s := if dir then sn else -sn
  let tpre := (a l).re * c - (a l).im * s
  let tpim := (a l).re * s + (a l).im * c
  some (Function.update (Function.update a l ⟨(a k).re - tpre, (a k).im - tpim⟩) k
    ⟨(a k).re + tpre, (a k).im + tpim⟩)

def fftPass (dir : Bool) (tablestep halfsize : Nat) (a : Nat → Sample K) :
    Option (Nat → Sample K) :=
  (List.range' 0 ((fftSize b + (halfsize * 2 - 1)) / (halfsize * 2)) (halfsize * 2)).foldlM
    (fun a i => (List.range halfsize).foldlM (turn b table dir tablestep halfsize i) a) a

/-- The outer loop; it ends when the table step is shifted out. -/
def fftPasses (dir : Bool) (tablestep halfsize : Nat) (a : Nat → Sample K) :
    Option (Nat → Sample K) :=
  if tablestep = 0 then some a
  else do
    let a ← fftPass b table dir tablestep halfsize a
    fftPasses dir (tablestep / 2) (halfsize * 2) a
termination_by tablestep

/-- `dir` is false for the forward transform; no value when a read misses the table. -/
def fft (dir : Bool) (a : Nat → Sample K) : Option (Nat → Sample K) :=
  fftPasses b table dir (fftSize b / 2) 1 (reorder b a)

end Code

section Order

theorem reverseStep_iterate (n : Nat) {m r x : Nat} (hr : r < 2 ^ m) (h : m + n ≤ 16) :
    (reverseStep^[n] (r, x)).1 = 2 ^ n * r + bitReverse n x := by
  induction n generalizing m r x with
  | zero => simp [bitReverse]
  | succ n ih =>
    have hbit : x % 2 < 2 ^ 1 := Nat.mod_lt x Nat.two_pos
    have hor : r * 2 ||| x % 2 = 2 * r + x % 2 := by
      rw [mul_comm r 2]
      exact (Nat.two_pow_add_eq_or_of_lt hbit r).symm
    have hnext : 2 * r + x % 2 < 2 ^ (m + 1) := by
      rw [pow_succ]
      omega
    have hword : 2 ^ (m + 1) ≤ 2 ^ 16 := Nat.pow_le_pow_right Nat.two_pos (by omega)
    rw [Function.iterate_succ_apply, reverseStep, hor, Nat.mod_eq_of_lt (by omega),
      ih hnext (by omega), bitReverse, pow_succ]
    ring

theorem reverseBitsLoop_eq {n : Nat} (h : n ≤ 16) (x : Nat) :
    reverseBitsLoop x n = bitReverse n x := by
  rw [reverseBitsLoop, reverseStep_iterate n (m := 0) Nat.one_pos (by omega), mul_zero, zero_add]

theorem bitReverse_div (n m x : Nat) : bitReverse (n + m) x / 2 ^ m = bitReverse n x := by
  apply Nat.eq_of_testBit_eq
  intro j
  have hindex : n + m - 1 - (j + m) = n - 1 - j := by omega
  rw [Nat.testBit_div_two_pow, testBit_bitReverse, testBit_bitReverse, hindex]
  simp

theorem reverseBits_eq (i : Nat) : reverseBits b i (fftN b) = bitReverse (fftN b) i := by
  cases b with
  | f072 => exact reverseBitsLoop_eq (by decide) i
  | f303 => exact bitReverse_div 10 22 i

theorem reorder_apply {α : Type} (a : Nat → α) {p : Nat} (hp : p < fftSize b) :
    reorder b a p = a (bitReverse (fftN b) p) := by
  have hf : (fun i => reverseBits b i (fftN b)) = bitReverse (fftN b) :=
    funext (reverseBits_eq b)
  rw [reorder, hf, foldl_swapUp _ (n := fftSize b) (fun i _ => bitReverse_lt _ i)
    (fun i hi => bitReverse_bitReverse hi) a _ le_rfl p hp, if_pos (Or.inl hp)]

end Order

section Twiddles

noncomputable def exactTable (i : Nat) : ℝ := Real.sin (Real.pi / 2 * (i / quarterSteps b))

noncomputable def root (dir : Bool) : ℂ :=
  Complex.exp ((if dir then 1 else -1) * (2 * Real.pi * Complex.I / fftSize b))

theorem fftSize_eq : fftSize b = 4 * fftQ b := by cases b <;> rfl

theorem fftH_eq : fftH b = 2 * fftQ b := by cases b <;> rfl

theorem quarterSteps_eq : quarterSteps b = fftQ b * fftTableScale b := by cases b <;> rfl

theorem fftQ_pos : 0 < fftQ b := by cases b <;> decide

theorem fftTableScale_pos : 0 < fftTableScale b := by cases b <;> decide

theorem sinTableQtr_exact {i : Nat} (hi : i ≤ fftQ b) {z : Int} (hz : z = i) :
    sinTableQtr b (exactTable b) (z * fftTableScale b) =
      some (Real.sin (2 * Real.pi * i / fftSize b)) := by
  have hq : (fftQ b : ℝ) ≠ 0 := by exact_mod_cast (fftQ_pos b).ne'
  have hs : (fftTableScale b : ℝ) ≠ 0 := by exact_mod_cast (fftTableScale_pos b).ne'
  have hle : i * fftTableScale b ≤ quarterSteps b := by
    rw [quarterSteps_eq]
    exact Nat.mul_le_mul_right _ hi
  have hcast : (z * fftTableScale b : Int) = ((i * fftTableScale b : Nat) : Int) := by
    rw [hz]
    push_cast
    ring
  rw [sinTableQtr, hcast, if_pos ⟨by omega, by omega⟩, Int.toNat_natCast, exactTable,
    quarterSteps_eq, fftSize_eq]
  congr 2
  push_cast
  field_simp
  ring

theorem angle_eq (x : ℝ) : 2 * Real.pi * x / fftSize b = Real.pi / 2 * (x / fftQ b) := by
  have hq : (fftQ b : ℝ) ≠ 0 := by exact_mod_cast (fftQ_pos b).ne'
  rw [fftSize_eq]
  push_cast
  field_simp
  ring

theorem fftSin_exact {i : Nat} (hi : i ≤ fftH b) :
    fftSin b (exactTable b) i = some (Real.sin (2 * Real.pi * i / fftSize b)) := by
  have hq : (fftQ b : ℝ) ≠ 0 := by exact_mod_cast (fftQ_pos b).ne'
  rw [fftH_eq] at hi
  unfold fftSin
  split_ifs with hup
  · rw [sinTableQtr_exact b (i := 2 * fftQ b - i) (by omega) (by rw [fftH_eq]; omega),
      ← Real.sin_pi_sub (2 * Real.pi * i / fftSize b), angle_eq, angle_eq, Nat.cast_sub hi]
    congr 2
    push_cast
    field_simp
  · exact sinTableQtr_exact b (by omega) rfl

theorem fftCos_exact {i : Nat} (hi : i ≤ fftH b) :
    fftCos b (exactTable b) i = some (Real.cos (2 * Real.pi * i / fftSize b)) := by
  have hq : (fftQ b : ℝ) ≠ 0 := by exact_mod_cast (fftQ_pos b).ne'
  rw [fftH_eq] at hi
  unfold fftCos
  split_ifs with hup
  · have hshift : Real.pi / 2 * (((i - fftQ b : Nat) : ℝ) / fftQ b) =
        Real.pi / 2 * (i / fftQ b) - Real.pi / 2 := by
      rw [Nat.cast_sub hup.le]
      field_simp
    rw [sinTableQtr_exact b (i := i - fftQ b) (by omega) (by omega), angle_eq, angle_eq, hshift,
      Real.sin_sub_pi_div_two, Option.map_some, neg_neg]
  · have hshift : Real.pi / 2 * (((fftQ b - i : Nat) : ℝ) / fftQ b) =
        Real.pi / 2 - Real.pi / 2 * (i / fftQ b) := by
      rw [Nat.cast_sub (by omega)]
      field_simp
    rw [sinTableQtr_exact b (i := fftQ b - i) (by omega) (by omega), angle_eq, angle_eq, hshift,
      Real.sin_pi_div_two_sub]

theorem root_pow (dir : Bool) (i : Nat) :
    root b dir ^ i =
      ⟨Real.cos (2 * Real.pi * i / fftSize b),
        if dir then Real.sin (2 * Real.pi * i / fftSize b)
        else -Real.sin (2 * Real.pi * i / fftSize b)⟩ := by
  have hexp : root b dir ^ i =
      Complex.exp (((if dir then 1 else -1) * (2 * Real.pi * i / fftSize b) : ℝ) * Complex.I) := by
    rw [root, ← Complex.exp_nat_mul]
    congr 1
    cases dir <;> simp <;> ring
  rw [hexp]
  apply Complex.ext
  · rw [Complex.exp_ofReal_mul_I_re]
    cases dir <;> simp
  · rw [Complex.exp_ofReal_mul_I_im]
    cases dir <;> simp

end Twiddles

section Simulation

/-- One round of the innermost loop is a butterfly, and its reads are inside the table. -/
theorem turn_exact (dir : Bool) {tablestep halfsize i j : Nat} (hj : j * tablestep ≤ fftH b)
    (a : Nat → Sample ℝ) :
    ∃ t, turn b (exactTable b) dir tablestep halfsize i a j = some t ∧
      toComplex ∘ t =
        butterfly (root b dir ^ (j * tablestep)) (i + j) (i + j + halfsize) (toComplex ∘ a) := by
  refine ⟨_, by rw [turn, fftSin_exact b hj, fftCos_exact b hj]; rfl, ?_⟩
  rw [Function.comp_update, Function.comp_update, butterfly, root_pow]
  congr 1
  · congr 1
    apply Complex.ext <;> cases dir <;> simp [toComplex] <;> ring
  · apply Complex.ext <;> cases dir <;> simp [toComplex] <;> ring

theorem range'_zero (n step : Nat) : List.range' 0 n step = (List.range n).map (· * step) :=
  List.ext_getElem (by simp) fun i _ _ => by simp [mul_comm]

theorem fftPass_exact (dir : Bool) {t s : Nat} (hsize : t + 1 + s = fftN b) (a : Nat → Sample ℝ) :
    ∃ a', fftPass b (exactTable b) dir (2 ^ t) (2 ^ s) a = some a' ∧
      toComplex ∘ a' =
        radixPass (fun j => root b dir ^ (j * 2 ^ t)) (2 ^ s) (2 ^ t) (toComplex ∘ a) := by
  have hN : fftSize b = 2 ^ t * (2 ^ s * 2) := by
    rw [fftSize, ← hsize]
    ring
  have hpos : 0 < 2 ^ s * 2 := by positivity
  have hcount : (fftSize b + (2 ^ s * 2 - 1)) / (2 ^ s * 2) = 2 ^ t := by
    rw [hN, Nat.mul_comm, Nat.mul_add_div hpos, Nat.div_eq_of_lt (by omega), add_zero]
  have hH : fftH b = 2 ^ s * 2 ^ t := by
    rw [fftH, hN, ← mul_assoc, Nat.mul_div_cancel _ Nat.two_pos, mul_comm]
  have hblock : ∀ (a : Nat → Sample ℝ) (i : Nat),
      ∃ a', (List.range (2 ^ s)).foldlM (turn b (exactTable b) dir (2 ^ t) (2 ^ s) i) a = some a' ∧
        toComplex ∘ a' =
          block (fun j => root b dir ^ (j * 2 ^ t)) (2 ^ s) (2 ^ s) i (toComplex ∘ a) := by
    intro a i
    refine foldlM_simulates (toComplex ∘ ·) _ _ (fun a j hj => turn_exact b dir ?_ a) a
    rw [hH]
    exact Nat.mul_le_mul_right _ (List.mem_range.mp hj).le
  rw [fftPass, hcount, range'_zero, radixPass]
  have hfold := foldlM_simulates (fun a : Nat → Sample ℝ => toComplex ∘ a)
    (fun A i => block (fun j => root b dir ^ (j * 2 ^ t)) (2 ^ s) (2 ^ s) i A)
    ((List.range (2 ^ t)).map (· * (2 ^ s * 2))) (fun a i _ => hblock a i) a
  rw [List.foldl_map, mul_comm (2 ^ s) 2] at hfold
  rwa [mul_comm (2 ^ s) 2]

theorem fftPasses_exact (dir : Bool) {t s : Nat} (hsize : t + s = fftN b) (a : Nat → Sample ℝ) :
    ∃ a', fftPasses b (exactTable b) dir (2 ^ t / 2) (2 ^ s) a = some a' ∧
      toComplex ∘ a' = passes (root b dir) t s (toComplex ∘ a) := by
  induction t generalizing s a with
  | zero =>
    refine ⟨a, ?_, rfl⟩
    rw [fftPasses, if_pos (by decide)]
  | succ t ih =>
    have hhalf : 2 ^ (t + 1) / 2 = 2 ^ t := by rw [pow_succ, Nat.mul_div_cancel _ Nat.two_pos]
    obtain ⟨u, hu, hpass⟩ := fftPass_exact b dir hsize a
    obtain ⟨a', ha', hrest⟩ := ih (s := s + 1) (by omega) u
    refine ⟨a', ?_, by rw [hrest, hpass]; rfl⟩
    rw [hhalf, fftPasses, if_neg (by positivity), hu]
    rw [pow_succ] at ha'
    exact ha'

end Simulation

section Transform

noncomputable def fourierSum (dir : Bool) (x : Nat → Sample ℝ) (k : Nat) : ℂ :=
  ∑ m ∈ Finset.range (fftSize b), toComplex (x m) *
    Complex.exp ((if dir then 1 else -1) * (2 * Real.pi * Complex.I * (m * k) / fftSize b))

theorem dft_root (dir : Bool) (x : Nat → Sample ℝ) (k : Nat) :
    dft (root b dir) (fftSize b) (toComplex ∘ x) k = fourierSum b dir x k := by
  refine Finset.sum_congr rfl fun m _ => ?_
  rw [root, ← Complex.exp_nat_mul]
  refine congrArg (fun z => toComplex (x m) * Complex.exp z) ?_
  push_cast
  ring

theorem fftSize_ne_zero : fftSize b ≠ 0 := by cases b <;> decide

theorem isPrimitiveRoot_root (dir : Bool) : IsPrimitiveRoot (root b dir) (fftSize b) := by
  have h := Complex.isPrimitiveRoot_exp (fftSize b) (fftSize_ne_zero b)
  cases dir with
  | true => simpa [root] using h
  | false => simpa [root, Complex.exp_neg] using h.inv

theorem root_mul_root : root b false * root b true = 1 := by
  rw [root, root, ← Complex.exp_add]
  simp

theorem root_half (dir : Bool) : root b dir ^ 2 ^ (fftN b - 1) = -1 := by
  have hsize : fftSize b = 2 ^ (fftN b - 1) * 2 := by cases b <;> rfl
  exact ((isPrimitiveRoot_root b dir).pow (Nat.pos_of_ne_zero (fftSize_ne_zero b))
    hsize).eq_neg_one_of_two_right

theorem fft_exact (dir : Bool) (x : Nat → Sample ℝ) :
    ∃ y, fft b (exactTable b) dir x = some y ∧
      ∀ k < fftSize b, toComplex (y k) = dft (root b dir) (fftSize b) (toComplex ∘ x) k := by
  obtain ⟨y, hy, hpasses⟩ := fftPasses_exact b dir (Nat.add_zero _) (reorder b x)
  refine ⟨y, hy, fun k hk => ?_⟩
  have hstage : Stage (root b dir) (toComplex ∘ x) (fftN b) 0 (toComplex ∘ reorder b x) :=
    stage_zero fun i hi => congrArg toComplex (reorder_apply b x hi)
  have := passes_stage hstage (fun _ => root_half b dir) (k := k) hk
  rw [← hpasses] at this
  exact this

theorem fft_computes_transform (x : Nat → Sample ℝ) :
    (∀ dir, ∃ y, fft b (exactTable b) dir x = some y ∧
      ∀ k < fftSize b, toComplex (y k) = fourierSum b dir x k) ∧
    ∃ y z, fft b (exactTable b) false x = some y ∧ fft b (exactTable b) true y = some z ∧
      ∀ p < fftSize b, toComplex (z p) = fftSize b * toComplex (x p) := by
  constructor
  · intro dir
    obtain ⟨y, hy, hdft⟩ := fft_exact b dir x
    exact ⟨y, hy, fun k hk => by rw [hdft k hk, dft_root]⟩
  · obtain ⟨y, hy, hdft⟩ := fft_exact b false x
    obtain ⟨z, hz, hinverse⟩ := fft_exact b true y
    refine ⟨y, z, hy, hz, fun p hp => ?_⟩
    have hsame : dft (root b true) (fftSize b) (toComplex ∘ y) p =
        dft (root b true) (fftSize b) (dft (root b false) (fftSize b) (toComplex ∘ x)) p :=
      Finset.sum_congr rfl fun m hm => by
        rw [Function.comp_apply, hdft m (Finset.mem_range.mp hm)]
    rw [hinverse p hp, hsame, dft_dft (isPrimitiveRoot_root b false) (root_mul_root b) _ hp]
    rfl

end Transform

end NanoVNA.FastFourier
