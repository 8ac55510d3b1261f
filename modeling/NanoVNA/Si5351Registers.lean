import NanoVNA.Word32
import Mathlib.Data.Nat.Bitwise
import Mathlib.Data.Rat.Defs
import Mathlib.Tactic.FieldSimp
import Mathlib.Tactic.LinearCombination
import Mathlib.Tactic.Ring

namespace NanoVNA.Si5351Registers

open NanoVNA.Word32

def regOutputEnableControl : Nat := 3

def regClk0Control : Nat := 16

def regPllA : Nat := 26

def regPllB : Nat := 34

def regPllReset : Nat := 177

def regCrystalLoad : Nat := 183

def msregBase (channel : Nat) : Nat := 42 + 8 * channel

abbrev Registers := Nat → Nat

/-- A burst starts with the register address, which then counts up. -/
def bulkWrite (buf : List Nat) (r : Registers) : Registers :=
  match buf with
  | [] => r
  | reg :: data => fun a =>
    if reg ≤ a ∧ a < reg + data.length then data.getD (a - reg) 0 else r a

def write (reg dat : Nat) (r : Registers) : Registers := bulkWrite [reg, dat] r

def block (r : Registers) (base : Nat) : List Nat :=
  [r base, r (base + 1), r (base + 2), r (base + 3),
    r (base + 4), r (base + 5), r (base + 6), r (base + 7)]

theorem block_bulkWrite (base : Nat) (b0 b1 b2 b3 b4 b5 b6 b7 : Nat) (r : Registers) :
    block (bulkWrite [base, b0, b1, b2, b3, b4, b5, b6, b7] r) base =
      [b0, b1, b2, b3, b4, b5, b6, b7] := by
  simp [block, bulkWrite]

theorem bulkWrite_apart (base : Nat) (data : List Nat) (r : Registers) {a : Nat}
    (h : a < base ∨ base + data.length ≤ a) : bulkWrite (base :: data) r a = r a := by
  have hn : ¬ (base ≤ a ∧ a < base + data.length) := by omega
  simp [bulkWrite, hn]

theorem block_bulkWrite_apart (base : Nat) (data : List Nat) (r : Registers) {other : Nat}
    (h : other + 8 ≤ base ∨ base + data.length ≤ other) :
    block (bulkWrite (base :: data) r) other = block r other := by
  have hk : ∀ k < 8, bulkWrite (base :: data) r (other + k) = r (other + k) :=
    fun k hk => bulkWrite_apart base data r (by omega)
  simp only [block, hk 1 (by decide), hk 2 (by decide), hk 3 (by decide), hk 4 (by decide),
    hk 5 (by decide), hk 6 (by decide), hk 7 (by decide)]
  rw [show bulkWrite (base :: data) r other = r other from hk 0 (by decide)]

@[simp] theorem write_same (reg dat : Nat) (r : Registers) : write reg dat r reg = dat := by
  simp [write, bulkWrite]

theorem write_apart (reg dat : Nat) (r : Registers) {a : Nat} (h : a ≠ reg) :
    write reg dat r a = r a :=
  bulkWrite_apart reg [dat] r (by simp only [List.length_singleton]; omega)

structure Divider where
  p1 : Nat
  p2 : Nat
  p3 : Nat
  deriving DecidableEq, Repr

/-- `wrap` is what the processor does with a product that may not fit 32 bits. -/
def dividerOf (wrap : Nat → Nat) (mult num denom : Nat) : Divider :=
  let mult := wrap (mult * 128)
  let num := wrap (num * 128)
  let p1 := sub32 mult 512
  if num ≠ 0 then ⟨u32 (p1 + num / denom), num % denom, denom⟩ else ⟨p1, 0, 1⟩

/-- The register image of a divider; `high` is or-ed into the byte that holds `P1[17:16]`. -/
def dividerBytes (d : Divider) (high : Nat) : List Nat :=
  [(d.p3 &&& 0x0FF00) >>> 8,
    d.p3 &&& 0x000FF,
    ((d.p1 &&& 0x30000) >>> 16) ||| high,
    (d.p1 &&& 0x0FF00) >>> 8,
    d.p1 &&& 0x000FF,
    ((d.p3 &&& 0xF0000) >>> 12) ||| ((d.p2 &&& 0xF0000) >>> 16),
    (d.p2 &&& 0x0FF00) >>> 8,
    d.p2 &&& 0x000FF]

def decodeDivider (bytes : List Nat) : Divider :=
  let b := fun i => bytes.getD i 0
  ⟨b 2 % 4 * 65536 + b 3 * 256 + b 4, b 5 % 16 * 65536 + b 6 * 256 + b 7,
    b 5 / 16 * 65536 + b 0 * 256 + b 1⟩

def decodeDivby4 (bytes : List Nat) : Bool := bytes.getD 2 0 / 4 % 4 = 3

def decodeRdiv (bytes : List Nat) : Nat := 2 ^ (bytes.getD 2 0 / 16 % 8)

/-- The ratio a divider is set to: `(P1 + 512 + P2 / P3) / 128`, or 4 by the divide-by-4 bits. -/
def decodeRatio (bytes : List Nat) : ℚ :=
  if decodeDivby4 bytes then 4
  else
    let d := decodeDivider bytes
    (d.p1 + 512 + d.p2 / d.p3) / 128

theorem and_shifted_mask (n k s : Nat) :
    n &&& ((2 ^ k - 1) <<< s) = n / 2 ^ s % 2 ^ k * 2 ^ s := by
  refine Nat.eq_of_testBit_eq fun i => ?_
  rw [← Nat.shiftLeft_eq, Nat.testBit_and, Nat.testBit_shiftLeft, Nat.testBit_shiftLeft,
    Nat.testBit_two_pow_sub_one, Nat.testBit_mod_two_pow, Nat.testBit_div_two_pow]
  by_cases h : s ≤ i
  · simp [h, Bool.and_comm]
  · simp [h]

theorem or_low {k a b : Nat} (h : b < 2 ^ k) : a * 2 ^ k ||| b = a * 2 ^ k + b := by
  rw [← Nat.shiftLeft_eq, Nat.shiftLeft_add_eq_or_of_lt h]

theorem dividerBytes_eq (d : Divider) (high : Nat) :
    dividerBytes d (high * 4) =
      [d.p3 / 256 % 256, d.p3 % 256, high * 4 + d.p1 / 65536 % 4, d.p1 / 256 % 256, d.p1 % 256,
        d.p3 / 65536 % 16 * 16 + d.p2 / 65536 % 16, d.p2 / 256 % 256, d.p2 % 256] := by
  have h8 : ∀ n, n &&& 0x0FF00 = n / 256 % 256 * 256 := fun n => and_shifted_mask n 8 8
  have h0 : ∀ n, n &&& 0x000FF = n % 256 := fun n => Nat.and_two_pow_sub_one_eq_mod n 8
  have h16 : ∀ n, n &&& 0x30000 = n / 65536 % 4 * 65536 := fun n => and_shifted_mask n 2 16
  have hf : ∀ n, n &&& 0xF0000 = n / 65536 % 16 * 65536 := fun n => and_shifted_mask n 4 16
  have hhigh : d.p1 / 65536 % 4 ||| high * 4 = high * 4 + d.p1 / 65536 % 4 := by
    rw [Nat.or_comm]
    exact or_low (k := 2) (by omega)
  have hmid : d.p3 / 65536 % 16 * 16 ||| d.p2 / 65536 % 16 =
      d.p3 / 65536 % 16 * 16 + d.p2 / 65536 % 16 := or_low (k := 4) (by omega)
  have hs8 : ∀ n, n * 256 / 2 ^ 8 = n := fun n => by omega
  have hs16 : ∀ n, n * 65536 / 2 ^ 16 = n := fun n => by omega
  have hs12 : ∀ n, n * 65536 / 2 ^ 12 = n * 16 := fun n => by omega
  simp only [dividerBytes, h8, h0, h16, hf, Nat.shiftRight_eq_div_pow, hs8, hs16, hs12, hhigh, hmid]

structure Divider.InFormat (d : Divider) : Prop where
  p1_lt : d.p1 < 2 ^ 18
  p2_lt : d.p2 < 2 ^ 20
  p3_lt : d.p3 < 2 ^ 20
  p3_pos : 0 < d.p3

theorem decodeDivider_bytes {d : Divider} (h : d.InFormat) (high : Nat) :
    decodeDivider (dividerBytes d (high * 4)) = d := by
  obtain ⟨h1, h2, h3, _⟩ := h
  obtain ⟨p1, p2, p3⟩ := d
  rw [dividerBytes_eq]
  simp only [decodeDivider, List.getD_cons_zero, List.getD_cons_succ, Divider.mk.injEq] at *
  refine ⟨?_, ?_, ?_⟩ <;> omega

theorem decodeDivby4_bytes (d : Divider) (high : Nat) :
    decodeDivby4 (dividerBytes d (high * 4)) = decide (high % 4 = 3) := by
  have hb : (high * 4 + d.p1 / 65536 % 4) / 4 % 4 = high % 4 := by omega
  simp only [decodeDivby4, dividerBytes_eq, List.getD_cons_zero, List.getD_cons_succ, hb]

theorem decodeRdiv_bytes (d : Divider) (high : Nat) :
    decodeRdiv (dividerBytes d (high * 4)) = 2 ^ (high / 4 % 8) := by
  have hb : (high * 4 + d.p1 / 65536 % 4) / 16 % 8 = high / 4 % 8 := by omega
  simp only [decodeRdiv, dividerBytes_eq, List.getD_cons_zero, List.getD_cons_succ, hb]

structure RatioFits (mult num denom : Nat) : Prop where
  lower : 4 ≤ mult
  num_le : num ≤ denom
  denom_pos : 0 < denom
  denom_lt : denom < 2 ^ 20
  upper : mult * 128 + num * 128 / denom < 2052 * 128

/-- Nothing wraps on the way to the parameters, whatever the processor does with a product
of 32 bits or more. -/
theorem dividerOf_eq {mult num denom : Nat} (h : RatioFits mult num denom) {wrap : Nat → Nat}
    (hw : ∀ n < 2 ^ 32, wrap n = n) :
    dividerOf wrap mult num denom =
      if num ≠ 0 then ⟨mult * 128 - 512 + num * 128 / denom, num * 128 % denom, denom⟩
      else ⟨mult * 128 - 512, 0, 1⟩ := by
  obtain ⟨hlo, hnum, _, hden, hup⟩ := h
  have hq := Nat.zero_le (num * 128 / denom)
  have hm : wrap (mult * 128) = mult * 128 := hw _ (by omega)
  have hn : wrap (num * 128) = num * 128 := hw _ (by omega)
  have hs : sub32 (mult * 128) 512 = mult * 128 - 512 := sub32_of_le (by omega) (by omega)
  have hu : u32 (mult * 128 - 512 + num * 128 / denom) = mult * 128 - 512 + num * 128 / denom :=
    u32_of_lt (by omega)
  have hz : num * 128 ≠ 0 ↔ num ≠ 0 := by omega
  simp only [dividerOf, hm, hn, hs, hu, hz]

theorem dividerOf_inFormat {mult num denom : Nat} (h : RatioFits mult num denom) :
    (dividerOf u32 mult num denom).InFormat := by
  rw [dividerOf_eq h fun n => u32_of_lt]
  obtain ⟨hlo, hnum, hpos, hden, hup⟩ := h
  have hq := Nat.zero_le (num * 128 / denom)
  have hmod := Nat.mod_lt (num * 128) hpos
  split
  · exact ⟨by dsimp only; omega, by dsimp only; omega, hden, hpos⟩
  · exact ⟨by dsimp only; omega, Nat.two_pow_pos 20, Nat.one_lt_two_pow (by decide), Nat.one_pos⟩

theorem decodeRatio_dividerOf {mult num denom : Nat} (h : RatioFits mult num denom) {high : Nat}
    (hh : high % 4 = 0) :
    decodeRatio (dividerBytes (dividerOf u32 mult num denom) (high * 4)) = mult + num / denom := by
  have hd4 : decide (high % 4 = 3) = false := decide_eq_false (by omega)
  simp only [decodeRatio, decodeDivby4_bytes, decodeDivider_bytes (dividerOf_inFormat h), hd4,
    Bool.false_eq_true, if_false]
  rw [dividerOf_eq h fun n => u32_of_lt]
  obtain ⟨hlo, _, hpos, _, _⟩ := h
  have hcast : ((mult * 128 - 512 : Nat) : ℚ) = mult * 128 - 512 := by
    rw [Nat.cast_sub (by omega)]
    norm_num
  split
  · have hdm : (denom * (num * 128 / denom : Nat) + (num * 128 % denom : Nat) : ℚ) = num * 128 := by
      exact_mod_cast Nat.div_add_mod (num * 128) denom
    have hpos' : (0 : ℚ) < denom := by exact_mod_cast hpos
    rw [Nat.cast_add, hcast]
    field_simp
    linear_combination hdm
  · rename_i hz
    have hn : num = 0 := not_not.mp hz
    rw [hcast, hn]
    simp

end NanoVNA.Si5351Registers
