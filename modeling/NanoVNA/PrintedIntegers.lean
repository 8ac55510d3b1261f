import Mathlib.Tactic.IntervalCases
import NanoVNA.ShellArguments
import NanoVNA.ShellPrintf

namespace NanoVNA.PrintedIntegers

open NanoVNA.Word32 NanoVNA.ShellArguments NanoVNA.ShellPrintf

/-- `c + ((c > 9) ? ('A' - 10) : '0')` -/
def radixDigit (c : Nat) : Char := Char.ofNat (c + if 9 < c then 65 - 10 else 48)

/-- The digits from the end of the buffer on; the division is unsigned, the radix being so. -/
def divisorDigits (radix : Nat) : Nat → Nat → Nat → List Char
  | 0, _, _ => []
  | room + 1, num, precision =>
    (if precision - 1 ≠ 0 ∨ num / radix ≠ 0 then
        divisorDigits radix room (num / radix) (precision - 1) else []) ++
      [radixDigit (num % radix)]

def longToStringWithDivisor (num : UInt32) (radix precision : Nat) : List Char :=
  divisorDigits radix maxFiller num.toNat precision

inductive IntArg
  | d (v : Int32)
  | u (v : UInt32)

/-- `%d`: the sign goes first; the least number is its own negative. -/
def printSigned (v : Int32) : List Char :=
  if v < 0 then '-' :: longToStringWithDivisor (-v).toUInt32 10 0
  else longToStringWithDivisor v.toUInt32 10 0

/-- The text of a format of plain characters, `%d`, `%u`, `%x` and `%o`. -/
def chvprintfInts : List Char → List IntArg → List Char
  | '%' :: 'd' :: fmt, .d v :: args => printSigned v ++ chvprintfInts fmt args
  | '%' :: 'u' :: fmt, .u v :: args => longToStringWithDivisor v 10 0 ++ chvprintfInts fmt args
  | '%' :: 'x' :: fmt, .u v :: args => longToStringWithDivisor v 16 0 ++ chvprintfInts fmt args
  | '%' :: 'o' :: fmt, .u v :: args => longToStringWithDivisor v 8 0 ++ chvprintfInts fmt args
  | c :: fmt, args => c :: chvprintfInts fmt args
  | [], _ => []

/-- What the print stream keeps: a last byte of the buffer is left for the zero. -/
def plotPrintf (size : Nat) (text : List Char) : List Char := text.take (size - 1)

theorem radixDigit_ten {c : Nat} (h : c < 10) : radixDigit c = c.digitChar := by
  interval_cases c <;> rfl

theorem divisorDigits_ten (room num precision : Nat) :
    divisorDigits 10 room num precision = longDigits room num precision := by
  induction room generalizing num precision with
  | zero => rfl
  | succ room ih =>
    rw [divisorDigits, longDigits, ih, radixDigit_ten (Nat.mod_lt _ (by decide))]

theorem longToString_eq (num : UInt32) (precision : Nat) :
    longToString num precision = longToStringWithDivisor num 10 precision :=
  (divisorDigits_ten maxFiller num.toNat precision).symm

theorem length_divisorDigits_le (radix room num precision : Nat) :
    (divisorDigits radix room num precision).length ≤ room := by
  induction room generalizing num precision with
  | zero => exact Nat.le_refl 0
  | succ room ih =>
    rw [divisorDigits, List.length_append, List.length_singleton]
    apply Nat.add_le_add_right
    split
    · exact ih _ _
    · exact Nat.zero_le _

theorem mem_divisorDigits {radix room num precision : Nat} (hr : 0 < radix) {c : Char}
    (h : c ∈ divisorDigits radix room num precision) : ∃ d < radix, c = radixDigit d := by
  induction room generalizing num precision with
  | zero => cases h
  | succ room ih =>
    rw [divisorDigits, List.mem_append, List.mem_singleton] at h
    obtain h | rfl := h
    · split at h
      · exact ih h
      · cases h
    · exact ⟨_, Nat.mod_lt _ hr, rfl⟩

theorem u32_mul_add (value radix c : Nat) : u32 (u32 value * radix + c) = u32 (value * radix + c) := by
  simp only [u32, Nat.add_mod, Nat.mul_mod, Nat.mod_mod]

theorem atouiDigit_radixDigit {c : Nat} (h : c < 16) (p : Arg) :
    atouiDigit (radixDigit c :: p) = c := by
  have hall : ∀ d : Fin 16, atouiDigit [radixDigit d] = d := by decide +kernel
  exact hall ⟨c, h⟩

theorem digit_radixDigit {c : Nat} (h : c < 10) (p : Arg) : digit (radixDigit c :: p) = c := by
  interval_cases c <;> rfl

/-- Reading on from zero, the digits of a number leave the number; the induction takes the last
digit off. -/
theorem atouiDigits_divisorDigits {radix room num : Nat} (precision : Nat) (hr : 0 < radix)
    (hr16 : radix ≤ 16) (hnum : num < radix ^ room) (p : Arg) :
    atouiDigits radix 0 (divisorDigits radix room num precision ++ p) =
      atouiDigits radix (u32 num) p := by
  induction room generalizing num precision p with
  | zero =>
    have hzero : num = 0 := Nat.lt_one_iff.mp hnum
    rw [hzero]
    rfl
  | succ room ih =>
    have hdiv : num / radix < radix ^ room := by
      rw [Nat.div_lt_iff_lt_mul hr, ← Nat.pow_succ]
      exact hnum
    have hlast : num % radix < radix := Nat.mod_lt _ hr
    have hread (value : Nat) : atouiDigits radix value (radixDigit (num % radix) :: p) =
        atouiDigits radix (u32 (value * radix + num % radix)) p := by
      rw [atouiDigits, atouiDigit_radixDigit (Nat.lt_of_lt_of_le hlast hr16),
        if_neg (Nat.not_le_of_lt hlast)]
    have hnumber : num / radix * radix + num % radix = num := Nat.div_add_mod' num radix
    rw [divisorDigits, List.append_assoc, List.singleton_append]
    split
    · rw [ih (precision - 1) hdiv, hread, u32_mul_add, hnumber]
    · rename_i hmore
      have hzero : num / radix = 0 := Nat.eq_zero_of_not_pos fun h => hmore (.inr h.ne')
      rw [List.nil_append, hread, Nat.zero_mul, Nat.zero_add]
      rw [hzero, Nat.zero_mul, Nat.zero_add] at hnumber
      rw [hnumber]

def Decimal (p : Arg) : Prop := ∀ c ∈ p, ∃ d < 10, c = radixDigit d

theorem Decimal.isDigit {p : Arg} (h : Decimal p) {c : Char} (hc : c ∈ p) : c.isDigit = true := by
  obtain ⟨d, hd, rfl⟩ := h c hc
  interval_cases d <;> rfl

theorem Decimal.of_cons {c : Char} {p : Arg} (h : Decimal (c :: p)) : Decimal p :=
  fun c hc => h c (List.mem_cons_of_mem _ hc)

theorem decimal_longToString (v : UInt32) (precision : Nat) :
    Decimal (longToStringWithDivisor v 10 precision) :=
  fun _ h => mem_divisorDigits (by decide) h

theorem Decimal.atoiDigits_eq {value : Nat} {p : Arg} (h : Decimal p) :
    atoiDigits value p = atouiDigits 10 value p := by
  induction p generalizing value with
  | nil => rfl
  | cons c p ih =>
    obtain ⟨d, hd, rfl⟩ := h c List.mem_cons_self
    rw [atoiDigits, atouiDigits, digit_radixDigit hd, atouiDigit_radixDigit (by omega), if_pos hd,
      if_neg (Nat.not_le_of_lt hd)]
    exact ih h.of_cons

theorem Decimal.skipPlus_eq {p : Arg} (h : Decimal p) : skipPlus p = p := by
  unfold skipPlus
  split
  · exact absurd (h.isDigit List.mem_cons_self) (by decide)
  · rfl

theorem Decimal.atouiRadix_eq {p : Arg} (h : Decimal p) : atouiRadix p = (10, p) := by
  have hsecond {c : Char} {rest : Arg} (hp : p = '0' :: c :: rest) : c.isDigit = true :=
    h.isDigit (hp ▸ List.mem_cons_of_mem _ List.mem_cons_self)
  unfold atouiRadix
  split
  · exact absurd (hsecond rfl) (by decide)
  · exact absurd (hsecond rfl) (by decide)
  · exact absurd (hsecond rfl) (by decide)
  · rfl

theorem atouiDigits_longToString (v : UInt32) {radix : Nat} (hlo : 8 ≤ radix) (hhi : radix ≤ 16) :
    atouiDigits radix 0 (longToStringWithDivisor v radix 0) = v.toNat := by
  have hroom : v.toNat < radix ^ maxFiller :=
    calc v.toNat < 8 ^ maxFiller := Nat.lt_trans v.toNat_lt (by decide)
      _ ≤ radix ^ maxFiller := Nat.pow_le_pow_left hlo _
  have h := atouiDigits_divisorDigits 0 (by omega) hhi hroom []
  rw [List.append_nil] at h
  exact h.trans (u32_of_lt v.toNat_lt)

theorem myAtoui_decimal (v : UInt32) : myAtoui (longToStringWithDivisor v 10 0) = v.toNat := by
  have hd := decimal_longToString v 0
  rw [myAtoui, hd.skipPlus_eq, hd.atouiRadix_eq]
  exact atouiDigits_longToString v (by decide) (by decide)

theorem myAtoui_hex (v : UInt32) :
    myAtoui ('0' :: 'x' :: longToStringWithDivisor v 16 0) = v.toNat :=
  @atouiDigits_longToString v 16 (by decide) (by decide)

theorem myAtoui_octal (v : UInt32) :
    myAtoui ('0' :: 'o' :: longToStringWithDivisor v 8 0) = v.toNat :=
  @atouiDigits_longToString v 8 (by decide) (by decide)

theorem atoiDigits_decimal (v : UInt32) :
    atoiDigits 0 (skipPlus (longToStringWithDivisor v 10 0)) = v.toNat := by
  have hd := decimal_longToString v 0
  rw [hd.skipPlus_eq, hd.atoiDigits_eq]
  exact atouiDigits_longToString v (by decide) (by decide)

theorem int32_toUInt32 (v : Int32) : int32 v.toUInt32.toNat = v.toInt := by
  have hlt : v.toBitVec.toNat < 2 ^ 32 := v.toBitVec.isLt
  rw [← Int32.toNat_toBitVec, ← Int32.toInt_toBitVec, BitVec.toInt_eq_toNat_cond, int32,
    u32_of_lt hlt]
  split <;> split <;> omega

/-- The reader negates the unsigned value, which undoes the negation of the printer. -/
theorem int32_neg_toUInt32 (v : Int32) : int32 (sub32 0 (-v).toUInt32.toNat) = v.toInt := by
  have hlt : v.toBitVec.toNat < 2 ^ 32 := v.toBitVec.isLt
  have hneg : sub32 0 (-v).toUInt32.toNat = v.toUInt32.toNat := by
    rw [← Int32.toNat_toBitVec, ← Int32.toNat_toBitVec, Int32.toBitVec_neg, BitVec.toNat_neg,
      sub32, u32]
    omega
  rw [hneg, int32_toUInt32]

theorem myAtoi_printSigned (v : Int32) : myAtoi (printSigned v) = v.toInt := by
  unfold printSigned
  split
  · rw [myAtoi, atoiDigits_decimal]
    exact int32_neg_toUInt32 v
  · rw [myAtoi, atoiDigits_decimal]
    · exact int32_toUInt32 v
    · intro p hp
      have hdash := (decimal_longToString v.toUInt32 0).isDigit (hp ▸ List.mem_cons_self)
      exact absurd hdash (by decide)

theorem length_longToString_le (v : UInt32) (radix precision : Nat) :
    (longToStringWithDivisor v radix precision).length ≤ maxFiller :=
  length_divisorDigits_le radix maxFiller v.toNat precision

theorem length_printSigned_le (v : Int32) : (printSigned v).length ≤ maxFiller + 1 := by
  unfold printSigned
  split
  · exact Nat.succ_le_succ (length_longToString_le _ 10 0)
  · exact Nat.le_succ_of_le (length_longToString_le _ 10 0)

theorem plotPrintf_of_fits {size : Nat} {text : List Char} (h : text.length < size) :
    plotPrintf size text = text :=
  List.take_of_length_le (Nat.le_sub_one_of_lt h)

/-- Printing a word and reading the text gives the word back, in every radix of the reader that
the printer has. -/
theorem print_then_parse {size : Nat} (hsize : maxFiller + 1 < size) :
    (∀ v : Int32, myAtoi (plotPrintf size (chvprintfInts "%d".toList [.d v])) = v.toInt) ∧
      ∀ v : UInt32,
        myAtoui (plotPrintf size (chvprintfInts "%u".toList [.u v])) = v.toNat ∧
        myAtoui ("0x".toList ++ plotPrintf size (chvprintfInts "%x".toList [.u v])) = v.toNat ∧
        myAtoui ("0o".toList ++ plotPrintf size (chvprintfInts "%o".toList [.u v])) = v.toNat := by
  have hfits (v : UInt32) (radix : Nat) : plotPrintf size (longToStringWithDivisor v radix 0 ++ []) =
      longToStringWithDivisor v radix 0 := by
    rw [List.append_nil]
    apply plotPrintf_of_fits
    exact Nat.lt_trans (Nat.lt_succ_of_le (length_longToString_le v radix 0)) hsize
  refine ⟨fun v => ?_, fun v => ⟨?_, ?_, ?_⟩⟩
  · have hd : plotPrintf size (printSigned v ++ []) = printSigned v := by
      rw [List.append_nil]
      exact plotPrintf_of_fits (Nat.lt_of_le_of_lt (length_printSigned_le v) hsize)
    exact (congrArg myAtoi hd).trans (myAtoi_printSigned v)
  · exact (congrArg myAtoui (hfits v 10)).trans (myAtoui_decimal v)
  · exact (congrArg (fun text => myAtoui ('0' :: 'x' :: text)) (hfits v 16)).trans (myAtoui_hex v)
  · exact (congrArg (fun text => myAtoui ('0' :: 'o' :: text)) (hfits v 8)).trans (myAtoui_octal v)

theorem print_then_parse_least :
    maxFiller + 1 < 13 ∧
      myAtoi (plotPrintf 13 (chvprintfInts "%d".toList [.d Int32.minValue])) = -2147483648 :=
  ⟨by decide, (print_then_parse (by decide)).1 Int32.minValue⟩

end NanoVNA.PrintedIntegers
