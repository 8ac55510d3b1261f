import Mathlib.Data.List.TakeWhile
import Mathlib.Data.Nat.Digits.Defs
import Mathlib.Data.Nat.ModEq
import NanoVNA.ShellArguments

namespace NanoVNA.UnsignedText

open NanoVNA.Word32 NanoVNA.ShellArguments

def digitValue (c : Char) : Option Nat :=
  if '0' ≤ c ∧ c ≤ '9' then some (c.toNat - '0'.toNat)
  else if 'A' ≤ c ∧ c ≤ 'F' then some (c.toNat - 'A'.toNat + 10)
  else if 'a' ≤ c ∧ c ≤ 'f' then some (c.toNat - 'a'.toNat + 10)
  else none

def isDigitOf (radix : Nat) (c : Char) : Bool := (digitValue c).any (· < radix)

def numberOf (radix : Nat) (digits : List Nat) : Nat := Nat.ofDigits radix digits.reverse

/-- The value of the longest prefix of digits, behind a plus sign and the mark of the radix. -/
def denoted (text : Arg) : Nat :=
  let (radix, p) := atouiRadix (skipPlus text)
  numberOf radix ((p.takeWhile (isDigitOf radix)).map fun c => (digitValue c).getD 0)

/-- What stands in front of the upper case letters, or in front of the lower case ones, is read as
well. -/
def readValue (c : Char) : Option Nat :=
  (digitValue c).or <|
    if ':' ≤ c ∧ c ≤ '?' then some (c.toNat - ':'.toNat + 10)
    else if 'W' ≤ c ∧ c ≤ '\x60' then some (c.toNat - 'W'.toNat)
    else none

def isReadAs (radix : Nat) (c : Char) : Bool := (readValue c).any (· < radix)

def misread (radix : Nat) (p : Arg) : Arg :=
  (p.dropWhile (isDigitOf radix)).takeWhile (isReadAs radix)

/-- What is misread, if there is anything, leaves the value as it is. -/
def Harmless (text : Arg) : Prop :=
  let (radix, p) := atouiRadix (skipPlus text)
  let run := misread radix p
  run = [] ∨ 2 ^ 32 ∣ denoted text * (radix ^ run.length - 1) +
    numberOf radix (run.map fun c => (readValue c).getD 0)

example : denoted "0x1fG".toList = 31 := by decide

example : misread 10 "12X4 5".toList = "X4".toList := by decide

theorem atouiRadix_bounds (p : Arg) : 0 < (atouiRadix p).1 ∧ (atouiRadix p).1 ≤ 16 := by
  unfold atouiRadix
  split <;> simp only <;> decide

/-- Only the bit that tells the cases apart is taken out of a code. -/
theorem le_and_of_le {n : Nat} (hn : n < 2 ^ 32) (h : 64 ≤ n) : 64 ≤ n &&& (2 ^ 32 - 1 - 32) := by
  have hshift : (n &&& (2 ^ 32 - 1 - 32)) >>> 6 = n >>> 6 := by
    have hmask : (2 ^ 32 - 1 - 32) >>> 6 = 2 ^ 26 - 1 := by decide
    rw [Nat.shiftRight_and_distrib, hmask, Nat.and_two_pow_sub_one_eq_mod,
      Nat.shiftRight_eq_div_pow]
    omega
  rw [Nat.shiftRight_eq_div_pow, Nat.shiftRight_eq_div_pow] at hshift
  omega

theorem atouiDigit_table : ∀ n < 128,
    readValue (Char.ofNat n) = none ∧ 16 ≤ atouiDigit [Char.ofNat n] ∨
      readValue (Char.ofNat n) = some (atouiDigit [Char.ofNat n]) := by
  decide +kernel

theorem not_le_char {c d : Char} (h : d.toNat < c.toNat) : ¬ c ≤ d :=
  fun hle => absurd (UInt32.le_iff_toNat_le.mp (Char.le_def.mp hle)) (Nat.not_le.mpr h)

theorem atouiDigit_spec (c : Char) :
    readValue c = none ∧ 16 ≤ atouiDigit [c] ∨ readValue c = some (atouiDigit [c]) := by
  by_cases hc : c.toNat < 128
  · have htable := atouiDigit_table c.toNat hc
    rwa [Char.ofNat_toNat] at htable
  · have hsmall : c.toNat < 2 ^ 32 := c.val.toNat_lt
    have hdigit : digit [c] = c.toNat - 48 := sub32_of_le hsmall (by omega)
    have hmask := @le_and_of_le (c.toNat - 48) (by omega) (by omega)
    have hmask' := @Nat.and_le_left (c.toNat - 48) (2 ^ 32 - 1 - 32)
    refine Or.inl ⟨?_, ?_⟩
    · have habove : ∀ d : Char, d.toNat < 128 → ¬ c ≤ d := fun d hd => not_le_char (by omega)
      simp [readValue, digitValue, habove]
    · rw [atouiDigit, hdigit, if_pos (by omega), sub32_of_le (by omega) (by omega),
        u32_of_lt (by omega)]
      omega

section Number

variable (radix : Nat)

theorem numberOf_append (front back : List Nat) :
    numberOf radix (front ++ back) =
      numberOf radix front * radix ^ back.length + numberOf radix back := by
  rw [numberOf, List.reverse_append, Nat.ofDigits_append, List.length_reverse, Nat.mul_comm,
    Nat.add_comm]
  rfl

theorem numberOf_cons (d : Nat) (digits : List Nat) :
    numberOf radix (d :: digits) = d * radix ^ digits.length + numberOf radix digits := by
  have hsingle : numberOf radix [d] = d := Nat.ofDigits_singleton
  rw [← List.singleton_append, numberOf_append, hsingle]

end Number

section Run

variable {radix : Nat} {c : Char}

theorem lt_radix_iff (hradix : radix ≤ 16) : atouiDigit [c] < radix ↔ isReadAs radix c = true := by
  rw [isReadAs]
  obtain ⟨hnone, hlarge⟩ | hsome := atouiDigit_spec c
  · rw [hnone]
    exact iff_of_false (by omega) Bool.false_ne_true
  · rw [hsome, Option.any_some, decide_eq_true_eq]

theorem readValue_of_isReadAs (h : isReadAs radix c = true) :
    (readValue c).getD 0 = atouiDigit [c] := by
  obtain ⟨hnone, -⟩ | hsome := atouiDigit_spec c
  · rw [isReadAs, hnone] at h
    exact absurd h Bool.false_ne_true
  · rw [hsome, Option.getD_some]

theorem readValue_of_isDigitOf (h : isDigitOf radix c = true) : readValue c = digitValue c := by
  cases hd : digitValue c with
  | none =>
    rw [isDigitOf, hd] at h
    exact absurd h Bool.false_ne_true
  | some d =>
    rw [readValue, hd]
    rfl

theorem atouiDigits_eq (hradix : radix ≤ 16) {value : Nat} (hvalue : value < 2 ^ 32) (p : Arg) :
    atouiDigits radix value p =
      u32 (value * radix ^ (p.takeWhile (isReadAs radix)).length +
        numberOf radix ((p.takeWhile (isReadAs radix)).map fun c => (readValue c).getD 0)) := by
  induction p generalizing value with
  | nil =>
    rw [List.takeWhile_nil, List.length_nil, Nat.pow_zero, Nat.mul_one]
    exact (u32_of_lt hvalue).symm
  | cons c p ih =>
    have hdigit : atouiDigit (c :: p) = atouiDigit [c] := rfl
    rw [atouiDigits, hdigit, List.takeWhile_cons]
    by_cases hread : isReadAs radix c = true
    · rw [if_neg (Nat.not_le.mpr ((lt_radix_iff hradix).mpr hread)), if_pos hread, ih (u32_lt _),
        List.map_cons, numberOf_cons, List.length_map, List.length_cons,
        readValue_of_isReadAs hread]
      generalize (p.takeWhile (isReadAs radix)).length = k
      generalize numberOf radix _ = n
      calc u32 (u32 (value * radix + atouiDigit [c]) * radix ^ k + n)
          = u32 ((value * radix + atouiDigit [c]) * radix ^ k + n) :=
            ((Nat.mod_modEq _ _).mul_right _).add_right _
        _ = u32 (value * radix ^ (k + 1) + (atouiDigit [c] * radix ^ k + n)) := by
            rw [Nat.pow_succ', Nat.add_mul, Nat.mul_assoc, Nat.add_assoc]
    · rw [if_pos (Nat.not_lt.mp fun hlt => hread ((lt_radix_iff hradix).mp hlt)), if_neg hread,
        List.length_nil, Nat.pow_zero, Nat.mul_one]
      exact (u32_of_lt hvalue).symm

theorem takeWhile_isReadAs (radix : Nat) (p : Arg) :
    p.takeWhile (isReadAs radix) = p.takeWhile (isDigitOf radix) ++ misread radix p := by
  have hdigits : ∀ c ∈ p.takeWhile (isDigitOf radix), isReadAs radix c = true := by
    intro c hc
    have hdigit := List.mem_takeWhile_imp hc
    rw [isReadAs, readValue_of_isDigitOf hdigit]
    exact hdigit
  rw [misread, ← List.takeWhile_append_of_pos hdigits, List.takeWhile_append_dropWhile]

end Run

theorem myAtoui_eq (text : Arg) :
    let (radix, p) := atouiRadix (skipPlus text)
    let run := misread radix p
    myAtoui text = u32 (denoted text * radix ^ run.length +
      numberOf radix (run.map fun c => (readValue c).getD 0)) := by
  have hradix := (atouiRadix_bounds (skipPlus text)).2
  rw [myAtoui, denoted]
  generalize atouiRadix (skipPlus text) = parts at hradix ⊢
  obtain ⟨radix, p⟩ := parts
  have hdigits : (p.takeWhile (isDigitOf radix)).map (fun c => (readValue c).getD 0) =
      (p.takeWhile (isDigitOf radix)).map fun c => (digitValue c).getD 0 :=
    List.map_congr_left fun c hc => by rw [readValue_of_isDigitOf (List.mem_takeWhile_imp hc)]
  dsimp only at hradix ⊢
  rw [atouiDigits_eq hradix (by decide), takeWhile_isReadAs, Nat.zero_mul, Nat.zero_add,
    List.map_append, numberOf_append, List.length_map, hdigits]

/-- The value read is that of the longest prefix of digits exactly when what is misread behind it
does not change the value. -/
theorem reads_unsigned_iff (text : Arg) :
    myAtoui text = denoted text % 2 ^ 32 ↔ Harmless text := by
  have hvalue := myAtoui_eq text
  have hradix := (atouiRadix_bounds (skipPlus text)).1
  rw [Harmless]
  generalize denoted text = v at hvalue ⊢
  generalize atouiRadix (skipPlus text) = parts at hvalue hradix ⊢
  obtain ⟨radix, p⟩ := parts
  dsimp only at hvalue hradix ⊢
  rw [hvalue]
  cases hrun : misread radix p with
  | nil =>
    refine iff_of_true ?_ (Or.inl rfl)
    rw [List.length_nil, Nat.pow_zero, Nat.mul_one]
    rfl
  | cons c run =>
    have hweight := Nat.one_le_pow (c :: run).length radix hradix
    have hsplit : v * radix ^ (c :: run).length =
        v * (radix ^ (c :: run).length - 1) + v := by
      rw [Nat.mul_sub_one, Nat.sub_add_cancel (Nat.le_mul_of_pos_right v hweight)]
    rw [or_iff_right (List.cons_ne_nil c run), hsplit, u32]
    generalize v * (radix ^ (c :: run).length - 1) = a
    generalize numberOf radix _ = b
    omega

/-- A letter behind a decimal number. -/
theorem not_reads_unsigned : myAtoui "5W".toList ≠ denoted "5W".toList % 2 ^ 32 := by decide

end NanoVNA.UnsignedText
