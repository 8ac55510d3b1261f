import Mathlib.Algebra.Order.Floor.Semiring
import Mathlib.Data.Rat.Floor
import Mathlib.Tactic.Linarith
import Mathlib.Tactic.NormNum
import NanoVNA.PrintBuffer

namespace NanoVNA.PrintFloats

open NanoVNA.Word32 NanoVNA.FrequencyText NanoVNA.PrintedIntegers NanoVNA.PrintBuffer
open NanoVNA.ShellPrintf (maxFiller floatPrecision digitSeparator decimals)

/-! ### Floats in the buffer -/

/-- The numbers of type float: what is 2 ^ 24 or more has no fraction, and smaller integers are
exact. The compiler may leave out the rounding of a product that goes into a sum. -/
structure FloatFormat where
  round : ℚ → ℚ
  mono : Monotone round
  natural : ∀ n : ℕ, n ≤ 2 ^ 24 → round n = n
  half : round (1 / 2) = 1 / 2
  integral : ∀ x, 2 ^ 24 ≤ x → round x = x → ∃ n : ℕ, x = n
  fused : Bool

structure Finite (fl : FloatFormat) where
  value : ℚ
  float : fl.round |value| = |value|
  integer : |value| < 2 ^ 32

section Floats

variable (fl : FloatFormat) (comma : Bool)

/-- `(num - l) * multi + 0.5`; the powers of ten in the table are exact. -/
def scaled (num : ℚ) (l multi : Nat) : Nat :=
  let product := fl.round (num - fl.round l) * multi
  ⌊fl.round ((if fl.fused then product else fl.round product) + 1 / 2)⌋₊

/-- The integer part and the scaled fraction, with the rounding error fixed. -/
def floatParts (num : ℚ) (multi : Nat) : Nat × Nat :=
  let l := ⌊num⌋₊
  let k := u32 (scaled fl num l multi)
  if multi ≤ k then (u32 (l + 1), k - multi) else (l, k)

/-- The table of the powers of ten has no place for a negative precision. -/
def ftoaAt (p : Nat) (num : ℚ) (precision : Int) (buf : Cells) : Option (Nat × Cells) :=
  let precision := min precision floatPrecision
  if precision < 0 then none
  else do
    let precision := precision.toNat
    let (l, k) := floatParts fl num (10 ^ precision)
    let (p, buf) ← longToStringAt p l 10 0 buf
    if precision = 0 then some (p, buf)
    else do
      let buf ← store buf p (digitSeparator comma)
      longToStringAt (p + 1) k 10 precision buf

structure Stack where
  below : List Char
  stops : ∃ c ∈ below, c ≠ '0'

/-- `p[-1]` -/
def charBefore (stack : Stack) (buf : Cells) (p : Int) : Option Char :=
  if 0 < p then buf (p - 1).toNat else stack.below[(-p).toNat]?

/-- `while (p[-1] == '0') p--` -/
def dropZeros (stack : Stack) (buf : Cells) : Nat → Int → Option Int
  | 0, _ => none
  | fuel + 1, p => do
    let c ← charBefore stack buf p
    if c = '0' then dropZeros stack buf fuel (p - 1) else some p

def dropEnd (stack : Stack) (buf : Cells) (separator : Char) (p : Int) : Option Int := do
  let p ← dropZeros stack buf (p.toNat + stack.below.length + 1) p
  let c ← charBefore stack buf p
  some (if c = separator then p - 1 else p)

def smallPrefix : List Char := ['m', '\x1d', 'n', 'p', 'f', 'a', 'z', 'y']

def scaleDown : List Char → Char → ℚ → ℚ × Char
  | [], last, num => (num, last)
  | c :: cs, last, num =>
    if 1000 ≤ num then scaleDown cs c (fl.round (num / 1000)) else (num, last)

def scaleUp : List Char → Char → ℚ → ℚ × Char
  | [], last, num => (num, last)
  | c :: cs, last, num =>
    if num < 1 then scaleUp cs c (fl.round (num * 1000)) else (num, last)

def prefixed (num : ℚ) : ℚ × Option Char :=
  if 1000 ≤ num then
    let (num, letter) := scaleDown fl (bigPrefix.drop 1).dropLast ' ' num
    (num, some letter)
  else if num < 1 then
    let (num, letter) := scaleUp fl smallPrefix ' ' num
    (num, if fl.round (1 / 1000) < num then some letter else none)
  else (num, none)

def int16 (n : Int) : Int := n.bmod (2 ^ 16)

def autoPrecision (letter : Bool) (l : Nat) (precision : Int) : Int :=
  let precision := if letter then int16 (precision - 1) else precision
  let precision :=
    if 100 ≤ l then int16 (precision - 2) else if 10 ≤ l then int16 (precision - 1) else precision
  max precision 0

def ftoaSAt (stack : Stack) (p : Nat) (num : ℚ) (precision : Int) (buf : Cells) :
    Option (Int × Cells) := do
  let (num, letter) := prefixed fl num
  let precision := autoPrecision letter.isSome ⌊num⌋₊ (int16 precision)
  let (p, buf) ← ftoaAt fl comma p num precision buf
  let p ← (if precision ≠ 0 then dropEnd stack buf (digitSeparator comma) p else some (p : Int))
  match letter with
  | none => some (p, buf)
  | some letter => do
    let buf ← (if p < 0 then none else store buf p.toNat letter)
    some (p + 1, buf)

end Floats

section Drops

variable {stack : Stack} {buf : Cells} {i p : Int}

theorem dropZeros_some {fuel : Nat}
    (hknown : ∀ q, i ≤ q → q ≤ p → ∃ c, charBefore stack buf q = some c)
    (hstop : charBefore stack buf i ≠ some '0') (hi : i ≤ p) (hfuel : (p - i).toNat < fuel) :
    ∃ p' c, dropZeros stack buf fuel p = some p' ∧ i ≤ p' ∧ p' ≤ p ∧
      charBefore stack buf p' = some c := by
  induction fuel generalizing p with
  | zero => omega
  | succ fuel ih =>
    obtain ⟨c, hc⟩ := hknown p hi (Int.le_refl p)
    rw [dropZeros, hc, Option.bind_eq_bind, Option.bind_some]
    by_cases hzero : c = '0'
    · have hne : i ≠ p := by
        rintro rfl
        rw [hc, hzero] at hstop
        exact hstop rfl
      obtain ⟨p', c', hdrop, hi', hp', hc'⟩ :=
        @ih (p - 1) (fun q hq hq' => hknown q hq (by omega)) (by omega) (by omega)
      rw [if_pos hzero, hdrop]
      exact ⟨p', c', rfl, hi', by omega, hc'⟩
    · rw [if_neg hzero]
      exact ⟨p, c, rfl, hi, Int.le_refl p, hc⟩

theorem charBefore_some (h : Full buf) (hp : -p < stack.below.length) :
    ∃ c, charBefore stack buf p = some c := by
  rw [charBefore]
  split
  · exact Option.isSome_iff_exists.mp (h _)
  · exact ⟨_, List.getElem?_eq_getElem (by omega)⟩

theorem dropEnd_some (h : Full buf) (separator : Char) (hstop : charBefore stack buf i ≠ some '0')
    (hbelow : -i < stack.below.length) (hi : i ≤ p) :
    ∃ p', dropEnd stack buf separator p = some p' ∧ i - 1 ≤ p' ∧ p' ≤ p := by
  obtain ⟨p', c, hdrop, hi', hp', hc⟩ :=
    @dropZeros_some stack buf i p (p.toNat + stack.below.length + 1)
      (fun q hq _ => charBefore_some h (by omega)) hstop hi (by omega)
  rw [dropEnd, hdrop, Option.bind_eq_bind, Option.bind_some, hc, Option.bind_eq_bind,
    Option.bind_some]
  split
  · exact ⟨p' - 1, rfl, by omega, by omega⟩
  · exact ⟨p', rfl, by omega, by omega⟩

theorem dropEnd_full (stack : Stack) (h : Full buf) (separator : Char) (hp : 0 ≤ p) :
    ∃ p', dropEnd stack buf separator p = some p' ∧ p' ≤ p := by
  obtain ⟨c, hmem, hc⟩ := stack.stops
  obtain ⟨j, hj, rfl⟩ := List.getElem_of_mem hmem
  have hstop : charBefore stack buf (-j) ≠ some '0' := by
    rw [charBefore, if_neg (by omega), Int.neg_neg, Int.toNat_natCast,
      List.getElem?_eq_getElem hj]
    exact fun hzero => hc (Option.some.inj hzero)
  obtain ⟨p', hdrop, -, hp'⟩ := @dropEnd_some stack buf (-j) p h separator hstop (by omega)
    (by omega)
  exact ⟨p', hdrop, hp'⟩

end Drops

section Parts

variable {fl : FloatFormat} {num : ℚ}

theorem floatParts_lt (hnum : num < 2 ^ 32) (multi : Nat) :
    (floatParts fl num multi).1 < 2 ^ 32 ∧ (floatParts fl num multi).2 < 2 ^ 32 := by
  have hfloor : ⌊num⌋₊ < 2 ^ 32 := by
    rw [Nat.floor_lt' (by decide)]
    exact_mod_cast hnum
  have hk := u32_lt (scaled fl num ⌊num⌋₊ multi)
  unfold floatParts
  dsimp only
  split
  · exact ⟨u32_lt _, by dsimp only; omega⟩
  · exact ⟨hfloor, hk⟩

theorem scaled_natural {n : Nat} (hn : fl.round n = n) (multi : Nat) : scaled fl n n multi = 0 := by
  have hzero : fl.round 0 = 0 := by
    have hnatural := fl.natural 0 (Nat.zero_le _)
    rwa [Nat.cast_zero] at hnatural
  have hhalf : ⌊(1 / 2 : ℚ)⌋₊ = 0 := by
    rw [Nat.floor_eq_zero]
    norm_num
  rw [scaled, hn, sub_self, hzero, zero_mul, hzero, ite_self, zero_add, fl.half, hhalf]

theorem floatParts_large (hnum : 2 ^ 24 ≤ num) (hfloat : fl.round num = num) {multi : Nat}
    (hmulti : 0 < multi) : (floatParts fl num multi).1 = ⌊num⌋₊ := by
  obtain ⟨n, rfl⟩ := fl.integral num hnum hfloat
  unfold floatParts
  dsimp only
  rw [Nat.floor_natCast, scaled_natural hfloat, if_neg (by rw [u32]; omega)]

theorem floatParts_le {n : Nat} (hpos : 0 < n) (hn : n < 2 ^ 32) (hnum : num < n) (multi : Nat) :
    (floatParts fl num multi).1 ≤ n := by
  have hfloor : ⌊num⌋₊ < n := by rwa [Nat.floor_lt' hpos.ne']
  unfold floatParts
  dsimp only
  split
  · rw [u32_of_lt (by omega)]
    exact hfloor
  · exact hfloor.le

theorem decimals_le {n k : Nat} (hk : k ≠ 0) (hn : n < 10 ^ k) : decimals n ≤ k := by
  obtain rfl | hpos := Nat.eq_zero_or_pos n
  · rw [decimals, Nat.log_zero_right]
    omega
  · exact Nat.log_lt_of_lt_pow hpos.ne' hn

def wholeDigits (fl : FloatFormat) (num : ℚ) (precision : Int) : Nat :=
  decimals (floatParts fl num (10 ^ (min precision floatPrecision).toNat)).1

theorem wholeDigits_pos (precision : Int) : 0 < wholeDigits fl num precision := Nat.succ_pos _

theorem wholeDigits_le {n k : Nat} (hpos : 0 < n) (hn : n < 2 ^ 32) (hk : k ≠ 0) (hlt : n < 10 ^ k)
    (hnum : num < n) (precision : Int) : wholeDigits fl num precision ≤ k :=
  decimals_le hk (Nat.lt_of_le_of_lt (floatParts_le hpos hn hnum _) hlt)

theorem wholeDigits_ten_iff (hfloat : fl.round num = num) (precision : Int) :
    10 ≤ wholeDigits fl num precision ↔ 10 ^ 9 ≤ num := by
  obtain ⟨n, hn⟩ : ∃ n : Nat, n = (min precision floatPrecision).toNat := ⟨_, rfl⟩
  have hpow : 0 < 10 ^ n := Nat.pow_pos (by decide)
  obtain hsmall | hlarge := lt_or_ge num (2 ^ 24)
  · have hle : wholeDigits fl num precision ≤ 9 :=
      @wholeDigits_le fl num (2 ^ 24) 9 (by decide) (by decide) (by decide) (by decide)
        (by exact_mod_cast hsmall) precision
    have hlt : num < 10 ^ 9 := hsmall.trans (by norm_num)
    constructor
    · intro h
      omega
    · intro h
      exact absurd hlt h.not_gt
  · rw [wholeDigits, ← hn, floatParts_large hlarge hfloat hpow, decimals, Nat.succ_le_succ_iff]
    constructor
    · intro h
      have hpos : 0 < ⌊num⌋₊ := Nat.floor_pos.mpr (by linarith)
      have hfloor : 10 ^ 9 ≤ ⌊num⌋₊ := Nat.pow_le_of_le_log hpos.ne' h
      rw [Nat.le_floor_iff' (by decide)] at hfloor
      exact_mod_cast hfloor
    · intro h
      have hfloor : 10 ^ 9 ≤ ⌊num⌋₊ := by
        rw [Nat.le_floor_iff' (by decide)]
        exact_mod_cast h
      exact Nat.le_log_of_pow_le (by decide) hfloor

end Parts

section Ftoa

variable {fl : FloatFormat} {buf : Cells} {p : Nat} {num : ℚ} {precision : Int}

/-- The whole part fits in any case; it is the room for the decimals that ends too far behind. -/
theorem ftoaAt_whole (h : Full buf) (hnum : num < 2 ^ 32) (hp : p ≤ 2) (multi : Nat) :
    ∃ buf', longToStringAt p (floatParts fl num multi).1 10 0 buf =
        some (p + decimals (floatParts fl num multi).1, buf') ∧ Full buf' := by
  have hsize : tmpbufSize = 23 := rfl
  have hfiller : maxFiller = 11 := rfl
  obtain ⟨hl, -⟩ := @floatParts_lt fl num hnum multi
  have hlength := length_decimal hl 0 (by decide)
  rw [Nat.zero_max] at hlength
  obtain ⟨buf', hlong, hkeeps⟩ := @longToStringAt_spec buf p (floatParts fl num multi).1 10 0 h
    (by decide) hl (by decide) (by omega)
  rw [hlength] at hlong
  exact ⟨buf', hlong, hkeeps.full⟩

theorem ftoaAt_some (comma : Bool) (h : Full buf) (hnum : num < 2 ^ 32) (hp : p ≤ 2)
    (hprecision : 0 ≤ precision)
    (hroom : precision = 0 ∨ p + wholeDigits fl num precision ≤ 11) :
    ∃ p' buf', ftoaAt fl comma p num precision buf = some (p', buf') ∧ Full buf' ∧ p < p' ∧
      p' ≤ p + wholeDigits fl num precision + 12 ∧ p' ≤ tmpbufSize ∧
      (precision ≠ 0 → ∃ i, p < i ∧ i < p' ∧ buf' i = some (digitSeparator comma)) := by
  have hsize : tmpbufSize = 23 := rfl
  have hfiller : maxFiller = 11 := rfl
  have hnine : floatPrecision = 9 := rfl
  obtain ⟨n, hn⟩ : ∃ n : Nat, n = (min precision floatPrecision).toNat := ⟨_, rfl⟩
  have hzero : n = 0 ↔ precision = 0 := by omega
  obtain ⟨hl, hk⟩ := @floatParts_lt fl num hnum (10 ^ n)
  have hwhole : wholeDigits fl num precision = decimals (floatParts fl num (10 ^ n)).1 := by
    rw [wholeDigits, hn]
  have hpos := @wholeDigits_pos fl num precision
  have hdigits : wholeDigits fl num precision ≤ 10 := by
    rw [hwhole]
    exact decimals_le (by decide) (Nat.lt_trans hl (by decide))
  obtain ⟨buf', hlong, hfull⟩ := @ftoaAt_whole fl buf p num h hnum hp (10 ^ n)
  rw [← hwhole] at hlong
  obtain ⟨d, hd⟩ : ∃ d, d = wholeDigits fl num precision := ⟨_, rfl⟩
  rw [← hd] at hroom hpos hdigits hlong ⊢
  unfold ftoaAt
  dsimp only
  rw [if_neg (by omega), ← hn, Option.bind_eq_bind, hlong, Option.bind_some]
  dsimp only
  by_cases hnone : n = 0
  · rw [if_pos hnone]
    exact ⟨_, buf', rfl, hfull, by omega, by omega, by omega,
      fun hne => absurd (hzero.mp hnone) hne⟩
  · have hroom' : p + d ≤ 11 := by omega
    obtain ⟨point, hpoint⟩ : ∃ point,
      point = Function.update buf' (p + d) (some (digitSeparator comma)) := ⟨_, rfl⟩
    have hstore : store buf' (p + d) (digitSeparator comma) = some point := by
      rw [hpoint]
      exact if_pos (by omega)
    have hfull' : Full point := by
      rw [hpoint]
      exact hfull.update _ _
    obtain ⟨buf'', hfraction, hkeeps⟩ :=
      @longToStringAt_spec point (p + d + 1) (floatParts fl num (10 ^ n)).2 10 n hfull' (by decide)
        hk (by omega) (by omega)
    have hlength := length_divisorDigits_le 10 maxFiller (floatParts fl num (10 ^ n)).2 n
    obtain ⟨e, he⟩ : ∃ e,
      e = (divisorDigits 10 maxFiller (floatParts fl num (10 ^ n)).2 n).length := ⟨_, rfl⟩
    rw [← he] at hlength hfraction
    refine ⟨p + d + 1 + e, buf'', ?_, hkeeps.full, by omega, by omega, by omega,
      fun _ => ⟨p + d, by omega, by omega, ?_⟩⟩
    · rw [if_neg hnone, hstore, Option.bind_eq_bind, Option.bind_some, hfraction]
    · rw [hkeeps.front (p + d) (Nat.lt_succ_self _), hpoint, Function.update_self]

theorem ftoaAt_none (comma : Bool) (h : Full buf) (hnum : num < 2 ^ 32) (hp : p ≤ 2)
    (hroom : precision < 0 ∨ precision ≠ 0 ∧ 11 < p + wholeDigits fl num precision) :
    ftoaAt fl comma p num precision buf = none := by
  have hsize : tmpbufSize = 23 := rfl
  have hfiller : maxFiller = 11 := rfl
  have hnine : floatPrecision = 9 := rfl
  obtain ⟨n, hn⟩ : ∃ n : Nat, n = (min precision floatPrecision).toNat := ⟨_, rfl⟩
  unfold ftoaAt
  dsimp only
  split
  next hneg => rfl
  next hpos =>
    have hwhole : wholeDigits fl num precision = decimals (floatParts fl num (10 ^ n)).1 := by
      rw [wholeDigits, hn]
    obtain ⟨buf', hlong, -⟩ := @ftoaAt_whole fl buf p num h hnum hp (10 ^ n)
    rw [← hwhole] at hlong
    rw [← hn, Option.bind_eq_bind, hlong, Option.bind_some]
    dsimp only
    rw [if_neg (by omega), Option.bind_eq_bind]
    cases store buf' (p + wholeDigits fl num precision) (digitSeparator comma) with
    | none => rfl
    | some point =>
      rw [Option.bind_some]
      exact longToStringAt_none (by omega)

end Ftoa

section Prefixes

variable {fl : FloatFormat} {num : ℚ}

theorem round_le {n : Nat} (hn : n ≤ 2 ^ 24) (hnum : num ≤ n) : fl.round num ≤ n := by
  have hmono := fl.mono hnum
  rwa [fl.natural n hn] at hmono

theorem scaleDown_le {cs : List Char} {last : Char} {n : Nat} (hnum : num ≤ n) (hn : n ≤ 2 ^ 32)
    (hlist : n ≤ 1000 ^ (cs.length + 1)) : (scaleDown fl cs last num).1 ≤ 1000 := by
  induction cs generalizing last num n with
  | nil =>
    have hle : (n : ℚ) ≤ 1000 := by exact_mod_cast hlist
    exact hnum.trans hle
  | cons c cs ih =>
    rw [scaleDown]
    split
    next hlarge =>
      obtain ⟨m, hm⟩ : ∃ m : Nat, m = (n + 999) / 1000 := ⟨_, rfl⟩
      have hcover : n ≤ 1000 * m := by omega
      have hdiv : num / 1000 ≤ m := by
        have hcast : (n : ℚ) ≤ 1000 * m := by exact_mod_cast hcover
        rw [div_le_iff₀ (by norm_num)]
        linarith
      have hpow : 1000 ^ (cs.length + 1 + 1) = 1000 ^ (cs.length + 1) * 1000 := Nat.pow_succ _ _
      rw [List.length_cons, hpow] at hlist
      exact ih (round_le (by omega) hdiv) (by omega) (by omega)
    next hsmall => exact (not_le.mp hsmall).le

theorem scaleUp_le {cs : List Char} {last : Char} (hnum : num ≤ 1000) :
    (scaleUp fl cs last num).1 ≤ 1000 := by
  induction cs generalizing last num with
  | nil => exact hnum
  | cons c cs ih =>
    rw [scaleUp]
    split
    next hsmall =>
      have hle : fl.round (num * 1000) ≤ (1000 : ℕ) := by
        refine round_le (by decide) ?_
        push_cast
        linarith
      exact ih (by exact_mod_cast hle)
    next hlarge => exact hnum

theorem prefixed_le (hnum : num < 2 ^ 32) : (prefixed fl num).1 ≤ 1000 := by
  unfold prefixed
  split
  next hlarge =>
    have hle : num ≤ (2 ^ 32 : ℕ) := by exact_mod_cast hnum.le
    exact scaleDown_le hle (Nat.le_refl _) (by decide)
  next hsmall =>
    split
    next hfraction => exact scaleUp_le (by linarith)
    next hone => exact (not_le.mp hsmall).le

theorem ftoaSAt_some (comma : Bool) (stack : Stack) {buf : Cells} {p : Nat} (h : Full buf)
    (hnum : num < 2 ^ 32) (hp : p ≤ 2) (precision : Int) :
    ∃ (p' : Int) (buf' : Cells), ftoaSAt fl comma stack p num precision buf = some (p', buf') ∧
      Full buf' ∧ 0 ≤ p' := by
  have hsize : tmpbufSize = 23 := rfl
  have hle := @prefixed_le fl num hnum
  obtain ⟨⟨num', letter⟩, hprefixed⟩ : ∃ r, prefixed fl num = r := ⟨_, rfl⟩
  rw [hprefixed] at hle
  obtain ⟨n, hn⟩ : ∃ n, n = autoPrecision letter.isSome ⌊num'⌋₊ (int16 precision) := ⟨_, rfl⟩
  have hpos : 0 ≤ n := by
    rw [hn]
    exact Int.le_max_right _ _
  have hdigits : wholeDigits fl num' n ≤ 4 :=
    @wholeDigits_le fl num' 1001 4 (by decide) (by decide) (by decide) (by decide)
      (by push_cast; linarith) n
  obtain ⟨q, digits, hftoa, hfull, hq, hend, -, hpoint⟩ := @ftoaAt_some fl buf p num' n comma h
    (by linarith) hp hpos (by omega)
  have hdrop : ∃ p' : Int, (if n ≠ 0 then dropEnd stack digits (digitSeparator comma) q
      else some (q : Int)) = some p' ∧ 0 ≤ p' ∧ p' ≤ q := by
    split
    next hne =>
      obtain ⟨i, -, hi, hchar⟩ := hpoint hne
      have hstop : charBefore stack digits (i + 1 : Nat) ≠ some '0' := by
        rw [charBefore, if_pos (by omega), show ((i + 1 : Nat) - 1 : Int).toNat = i by omega, hchar]
        cases comma <;> decide
      obtain ⟨p', hdrop, hp', hle⟩ := @dropEnd_some stack digits (i + 1 : Nat) q hfull
        (digitSeparator comma) hstop (by omega) (by omega)
      exact ⟨p', hdrop, by omega, hle⟩
    next hzero => exact ⟨q, rfl, by omega, Int.le_refl _⟩
  obtain ⟨p', hdrop, hp', hle'⟩ := hdrop
  unfold ftoaSAt
  rw [hprefixed]
  dsimp only
  rw [← hn, hftoa, Option.bind_eq_bind, Option.bind_some]
  dsimp only
  rw [hdrop, Option.bind_eq_bind, Option.bind_some]
  cases letter with
  | none => exact ⟨p', digits, rfl, hfull, hp'⟩
  | some letter =>
    obtain ⟨buf', hstore, hkeeps⟩ := keeps_store hfull (Nat.zero_le p'.toNat) (by omega) letter
    refine ⟨p' + 1, buf', ?_, hkeeps.full, by omega⟩
    dsimp only
    rw [if_neg (by omega), hstore]
    rfl

end Prefixes

end NanoVNA.PrintFloats
