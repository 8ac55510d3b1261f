import Mathlib.Data.Nat.Log
import NanoVNA.Numerals

namespace NanoVNA.ShellPrintf

/-- What the formatter asks of a float: `value.f < 0`, `-value.f`, `value.f == infinityf()`,
`(uint32_t)num` and `(uint32_t)((num - l) * multi + 0.5)`. -/
structure FloatOps (F : Type) where
  negative : F → Bool
  neg : F → F
  infinite : F → Bool
  trunc : F → UInt32
  scaled : F → UInt32 → UInt32 → UInt32

def maxFiller : Nat := 11

def floatPrecision : Nat := 9

/-- The digits from the end of the buffer on, while `(precision && --precision) || num`. -/
def longDigits : Nat → Nat → Nat → List Char
  | 0, _, _ => []
  | room + 1, num, precision =>
    (if precision - 1 ≠ 0 ∨ num / 10 ≠ 0 then longDigits room (num / 10) (precision - 1) else []) ++
      [(num % 10).digitChar]

/-- `long_to_string_with_divisor` for the radix 10 -/
def longToString (num : UInt32) (precision : Nat) : List Char :=
  longDigits maxFiller num.toNat precision

inductive Value (F : Type)
  | u (n : UInt32)
  | f (x : F)

section Format

variable {F : Type} (ops : FloatOps F) (comma : Bool)

/-- `DIGIT_SEPARATOR`; the mode `VNA_MODE_SEPARATOR` asks for the comma. -/
def digitSeparator : Char := if comma then ',' else '.'

/-- The integer part and the scaled fraction, with the rounding error fixed. -/
def ftoaParts (num : F) (multi : UInt32) : UInt32 × UInt32 :=
  let l := ops.trunc num
  let k := ops.scaled num l multi
  if multi ≤ k then (l + 1, k - multi) else (l, k)

def ftoa (num : F) (precision : Nat) : List Char :=
  let precision := min precision floatPrecision
  let parts := ftoaParts ops num (UInt32.ofNat (10 ^ precision))
  longToString parts.1 0 ++
    if precision = 0 then [] else digitSeparator comma :: longToString parts.2 precision

def magnitude (x : F) : List Char :=
  if ops.infinite x then ['\x19', ' '] else ftoa ops comma x floatPrecision

/-- `%f` without flags, width and precision -/
def printFloat (x : F) : List Char :=
  if ops.negative x then '-' :: magnitude ops comma (ops.neg x) else magnitude ops comma x

def printValue : Value F → List Char
  | .u n => longToString n 0
  | .f x => printFloat ops comma x

/-- The text of a format of plain characters, `%u` and `%f`. -/
def chvprintf : List Char → List (Value F) → List Char
  | '%' :: 'u' :: fmt, .u n :: args => longToString n 0 ++ chvprintf fmt args
  | '%' :: 'f' :: fmt, .f x :: args => printFloat ops comma x ++ chvprintf fmt args
  | c :: fmt, args => c :: chvprintf fmt args
  | [], _ => []

end Format

/-- The number of bytes of the text, and what the memory stream keeps of it. -/
def chsnprintf (size : Nat) (text : List Char) : Nat × List Char :=
  (text.length, text.take (size - 1))

def decimals (n : Nat) : Nat := Nat.log 10 n + 1

theorem length_longDigits {room num precision : Nat} (hroom : 0 < room) (hnum : num < 10 ^ room)
    (hprecision : precision ≤ room) :
    (longDigits room num precision).length = max precision (decimals num) := by
  induction room generalizing num precision with
  | zero => exact absurd hroom (Nat.lt_irrefl 0)
  | succ room ih =>
    rw [longDigits, List.length_append, List.length_singleton]
    by_cases hmore : precision - 1 ≠ 0 ∨ num / 10 ≠ 0
    · have hrest : 0 < room := by
        obtain rfl | hpos := Nat.eq_zero_or_pos room
        · omega
        · exact hpos
      have hdiv : num / 10 < 10 ^ room := by
        rw [Nat.div_lt_iff_lt_mul (by decide), ← Nat.pow_succ]
        exact hnum
      rw [if_pos hmore, ih hrest hdiv (by omega), decimals, Nat.log_div_base, decimals]
      by_cases hten : num < 10
      · rw [Nat.log_of_lt hten]
        omega
      · have hlog : 0 < Nat.log 10 num := Nat.log_pos (by decide) (Nat.le_of_not_lt hten)
        omega
    · have hten : num < 10 := by omega
      rw [if_neg hmore, List.length_nil, decimals, Nat.log_of_lt hten]
      omega

theorem isDigit_longDigits {room num precision : Nat} {c : Char}
    (h : c ∈ longDigits room num precision) : c.isDigit = true := by
  induction room generalizing num precision with
  | zero => cases h
  | succ room ih =>
    rw [longDigits, List.mem_append, List.mem_singleton] at h
    obtain h | rfl := h
    · split at h
      · exact ih h
      · cases h
    · rw [Nat.isDigit_digitChar]
      exact decide_eq_true (Nat.mod_lt _ (by decide))

theorem decimals_uint32 (n : UInt32) : decimals n.toNat ≤ 10 := by
  have hlt : n.toNat < 10 ^ 10 := Nat.lt_trans n.toNat_lt (by decide)
  exact Nat.log_lt_of_lt_pow' (by decide) hlt

theorem length_longToString (num : UInt32) {precision : Nat} (h : precision ≤ maxFiller) :
    (longToString num precision).length = max precision (decimals num.toNat) :=
  length_longDigits (by decide) (Nat.lt_trans num.toNat_lt (by decide)) h

variable {F : Type} (ops : FloatOps F) (comma : Bool)

/-- The characters of an absolute value: the integer part, the separator and nine decimals; a
tenth one for what is too large for the conversion. -/
def magnitudeWidth (x : F) : Nat :=
  if ops.infinite x then 2
  else
    let parts := ftoaParts ops x (UInt32.ofNat (10 ^ floatPrecision))
    decimals parts.1.toNat + 1 + max floatPrecision (decimals parts.2.toNat)

def floatWidth (x : F) : Nat :=
  if ops.negative x then 1 + magnitudeWidth ops (ops.neg x) else magnitudeWidth ops x

def valueWidth : Value F → Nat
  | .u n => decimals n.toNat
  | .f x => floatWidth ops x

theorem length_magnitude (x : F) : (magnitude ops comma x).length = magnitudeWidth ops x := by
  unfold magnitude magnitudeWidth
  split
  · rfl
  · simp only [ftoa, Nat.min_self, List.length_append]
    rw [if_neg (by decide), List.length_cons, length_longToString _ (by decide),
      length_longToString _ (by decide), Nat.max_eq_right (Nat.zero_le _)]
    omega

theorem length_printFloat (x : F) : (printFloat ops comma x).length = floatWidth ops x := by
  unfold printFloat floatWidth
  split
  · rw [List.length_cons, length_magnitude, Nat.add_comm]
  · exact length_magnitude ops comma x

theorem length_printValue (v : Value F) :
    (printValue ops comma v).length = valueWidth ops v := by
  cases v with
  | u n => exact (length_longToString n (by decide)).trans (Nat.max_eq_right (Nat.zero_le _))
  | f x => exact length_printFloat ops comma x

theorem magnitudeWidth_le (x : F) : magnitudeWidth ops x ≤ 21 := by
  unfold magnitudeWidth
  split
  · decide
  · have hl := decimals_uint32 (ftoaParts ops x (UInt32.ofNat (10 ^ floatPrecision))).1
    have hk := decimals_uint32 (ftoaParts ops x (UInt32.ofNat (10 ^ floatPrecision))).2
    simp only [floatPrecision] at *
    omega

theorem floatWidth_le (x : F) : floatWidth ops x ≤ 22 := by
  have hpos := magnitudeWidth_le ops x
  have hneg := magnitudeWidth_le ops (ops.neg x)
  unfold floatWidth
  split <;> omega

theorem newline_not_mem_longToString (n : UInt32) (precision : Nat) :
    '\n' ∉ longToString n precision := fun h => by
  have hdigit := isDigit_longDigits h
  exact absurd hdigit (by decide)

theorem newline_not_mem_magnitude (x : F) : '\n' ∉ magnitude ops comma x := by
  unfold magnitude
  split
  · decide
  · simp only [ftoa, Nat.min_self]
    rw [if_neg (by decide), List.mem_append, List.mem_cons]
    rintro (h | h | h)
    · exact newline_not_mem_longToString _ _ h
    · cases comma <;> exact absurd h (by decide)
    · exact newline_not_mem_longToString _ _ h

theorem newline_not_mem_printValue (v : Value F) : '\n' ∉ printValue ops comma v := by
  cases v with
  | u n => exact newline_not_mem_longToString n 0
  | f x =>
    unfold printValue printFloat
    dsimp only
    split
    · rw [List.mem_cons]
      rintro (h | h)
      · exact absurd h (by decide)
      · exact newline_not_mem_magnitude ops comma _ h
    · exact newline_not_mem_magnitude ops comma x

end NanoVNA.ShellPrintf
