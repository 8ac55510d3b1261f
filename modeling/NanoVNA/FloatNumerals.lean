import Mathlib.Algebra.Order.Field.Power
import Mathlib.Data.Nat.Digits.Lemmas
import Mathlib.Data.Rat.Cast.Order
import Mathlib.RingTheory.Coprime.Lemmas
import Mathlib.Tactic.FieldSimp
import Mathlib.Tactic.Linarith
import Mathlib.Tactic.LinearCombination
import Mathlib.Tactic.Positivity
import Mathlib.Tactic.Ring
import NanoVNA.FloatText
import NanoVNA.UnsignedText

namespace NanoVNA.FloatNumerals

open NanoVNA.Word32 NanoVNA.ShellArguments NanoVNA.FloatText
open NanoVNA.UnsignedText (numberOf numberOf_append numberOf_cons)

def exact : FloatArith ℚ where
  ofInt n := n
  add := (· + ·)
  mul := (· * ·)
  neg x := -x
  tenth := 1 / 10
  ten := 10
  eq x y := decide (x = y)
  eq_symm := decide_eq_symm
  eq_trans := decide_eq_trans

inductive Sign
  | absent
  | plus
  | minus

def Sign.text : Sign → Arg
  | absent => []
  | plus => ['+']
  | minus => ['-']

def Sign.value : Sign → Int
  | minus => -1
  | _ => 1

def digitChar (d : Fin 10) : Char := Char.ofNat ('0'.toNat + d)

def digitsText (ds : List (Fin 10)) : Arg := ds.map digitChar

def digitsValue (ds : List (Fin 10)) : Nat := numberOf 10 (ds.map Fin.val)

inductive Suffix
  | giga
  | mega
  | kilo
  | milli
  | micro
  | nano
  | pico

def Suffix.letter : Suffix → Char
  | giga => 'G'
  | mega => 'M'
  | kilo => 'k'
  | milli => 'm'
  | micro => 'u'
  | nano => 'n'
  | pico => 'p'

def Suffix.exponent : Suffix → Int
  | giga => 9
  | mega => 6
  | kilo => 3
  | milli => -3
  | micro => -6
  | nano => -9
  | pico => -12

inductive Scale
  | absent
  | power (upper : Bool) (sign : Sign) (digits : List (Fin 10))
  | suffix (s : Suffix)

def Scale.text : Scale → Arg
  | absent => []
  | power upper sign digits => (if upper then 'E' else 'e') :: (sign.text ++ digitsText digits)
  | suffix s => [s.letter]

def Scale.exponent : Scale → Int
  | absent => 0
  | power _ sign digits => sign.value * digitsValue digits
  | suffix s => s.exponent

/-- A number as it is typed; the flag of a fraction says that it stands behind a comma. -/
structure Numeral where
  sign : Sign
  whole : List (Fin 10)
  fraction : Option (Bool × List (Fin 10))
  scale : Scale

namespace Numeral

variable (n : Numeral)

def fractionText : Arg :=
  match n.fraction with
  | none => []
  | some (comma, ds) => (if comma then ',' else '.') :: digitsText ds

def text : Arg := n.sign.text ++ (digitsText n.whole ++ (n.fractionText ++ n.scale.text))

def fractionDigits : List (Fin 10) := (n.fraction.map Prod.snd).getD []

def mantissa : ℚ :=
  digitsValue n.whole + digitsValue n.fractionDigits / 10 ^ n.fractionDigits.length

def value : ℚ := n.sign.value * (n.mantissa * 10 ^ n.scale.exponent)

end Numeral

example : (⟨.minus, [1, 0], some (true, [5]), .suffix .milli⟩ : Numeral).text =
    "-10,5m".toList := by decide

section Digits

variable {rest : Arg}

structure Stops (rest : Arg) : Prop where
  value : 10 ≤ digit rest
  head : ∀ c ∈ rest.head?, isDigit c = false
  unsigned : ∀ c ∈ rest.head?, c ≠ '-' ∧ c ≠ '+'

theorem digit_digitChar (d : Fin 10) (p : Arg) : digit (digitChar d :: p) = d := by
  have htable : ∀ d : Fin 10, sub32 (digitChar d).toNat 48 = d := by decide
  exact htable d

theorem isDigit_digitChar (d : Fin 10) : isDigit (digitChar d) = true := by
  have htable : ∀ d : Fin 10, isDigit (digitChar d) = true := by decide
  exact htable d

theorem digitsValue_nil : digitsValue [] = 0 := rfl

theorem digitsValue_cons (d : Fin 10) (ds : List (Fin 10)) :
    digitsValue (d :: ds) = d * 10 ^ ds.length + digitsValue ds := by
  rw [digitsValue, List.map_cons, numberOf_cons, List.length_map]
  rfl

theorem digitsValue_append (ds ds' : List (Fin 10)) :
    digitsValue (ds ++ ds') = digitsValue ds * 10 ^ ds'.length + digitsValue ds' := by
  rw [digitsValue, List.map_append, numberOf_append, List.length_map]
  rfl

theorem digitsValue_concat (ds : List (Fin 10)) (d : Fin 10) :
    digitsValue (ds ++ [d]) = digitsValue ds * 10 + d := by
  have hone : digitsValue [d] = d := Nat.ofDigits_singleton
  rw [digitsValue_append, hone, List.length_singleton, pow_one]

theorem digitsValue_lt (ds : List (Fin 10)) : digitsValue ds < 10 ^ ds.length := by
  have hdigits : ∀ d ∈ (ds.map Fin.val).reverse, d < 10 := by
    intro d hd
    obtain ⟨d, -, rfl⟩ := List.mem_map.mp (List.mem_reverse.mp hd)
    exact d.isLt
  have hlt := Nat.ofDigits_lt_base_pow_length (by decide) hdigits
  rwa [List.length_reverse, List.length_map] at hlt

theorem atoiDigits_text {value : Nat} (hvalue : value < 2 ^ 32) (ds : List (Fin 10))
    (hrest : Stops rest) :
    atoiDigits value (digitsText ds ++ rest) = u32 (value * 10 ^ ds.length + digitsValue ds) := by
  induction ds generalizing value with
  | nil =>
    have hstop : atoiDigits value rest = value := by
      cases rest with
      | nil => rfl
      | cons c p => rw [atoiDigits, if_neg (Nat.not_lt.mpr hrest.value)]
    rw [digitsValue_nil, List.length_nil, Nat.pow_zero, Nat.mul_one, Nat.add_zero, u32_of_lt hvalue]
    exact hstop
  | cons d ds ih =>
    have hcons : digitsText (d :: ds) ++ rest = digitChar d :: (digitsText ds ++ rest) := rfl
    rw [hcons, atoiDigits, digit_digitChar, if_pos d.isLt, ih (u32_lt _), digitsValue_cons,
      List.length_cons]
    calc u32 (u32 (value * 10 + d) * 10 ^ ds.length + digitsValue ds)
        = u32 ((value * 10 + d) * 10 ^ ds.length + digitsValue ds) :=
          ((Nat.mod_modEq _ _).mul_right _).add_right _
      _ = u32 (value * 10 ^ (ds.length + 1) + (d * 10 ^ ds.length + digitsValue ds)) := by
          rw [Nat.pow_succ', Nat.add_mul, Nat.mul_assoc, Nat.add_assoc]

theorem dropWhile_text (ds : List (Fin 10)) (hrest : Stops rest) :
    (digitsText ds ++ rest).dropWhile isDigit = rest := by
  induction ds with
  | nil =>
    cases rest with
    | nil => rfl
    | cons c p =>
      have hc := hrest.head c rfl
      change (c :: p).dropWhile isDigit = c :: p
      rw [List.dropWhile_cons, hc, if_neg Bool.false_ne_true]
  | cons d ds ih =>
    have hcons : digitsText (d :: ds) ++ rest = digitChar d :: (digitsText ds ++ rest) := rfl
    rw [hcons, List.dropWhile_cons, if_pos (isDigit_digitChar d), ih]

theorem atofFraction_text (d x : ℚ) (ds : List (Fin 10)) (hrest : Stops rest) :
    atofFraction exact d x (digitsText ds ++ rest) =
      (x + d * (digitsValue ds / 10 ^ ds.length), rest) := by
  induction ds generalizing d x with
  | nil =>
    have hstop : atofFraction exact d x rest = (x, rest) := by
      cases rest with
      | nil => rfl
      | cons c p => rw [atofFraction, hrest.head c rfl, if_neg Bool.false_ne_true]
    rw [digitsValue_nil, Nat.cast_zero, zero_div, mul_zero, add_zero]
    exact hstop
  | cons c ds ih =>
    have hcons : digitsText (c :: ds) ++ rest = digitChar c :: (digitsText ds ++ rest) := rfl
    have hpow : (10 : ℚ) ^ ds.length ≠ 0 := pow_ne_zero _ (by norm_num)
    rw [hcons, atofFraction, isDigit_digitChar, if_pos rfl, digit_digitChar, ih,
      digitsValue_cons, List.length_cons, Prod.mk.injEq]
    refine ⟨?_, rfl⟩
    simp only [exact]
    push_cast
    field_simp
    ring

end Digits

section Parts

theorem stops_nil : Stops [] :=
  ⟨by decide, fun _ hc => absurd hc (Option.not_mem_none _),
    fun _ hc => absurd hc (Option.not_mem_none _)⟩

theorem stops_cons {c : Char} (hvalue : 10 ≤ digit [c])
    (hhead : isDigit c = false ∧ c ≠ '-' ∧ c ≠ '+') (p : Arg) : Stops (c :: p) := by
  refine ⟨hvalue, fun d hd => ?_, fun d hd => ?_⟩
  · rw [← Option.some.inj hd]
    exact hhead.1
  · rw [← Option.some.inj hd]
    exact hhead.2

theorem stops_scale (scale : Scale) : Stops scale.text := by
  cases scale with
  | absent => exact stops_nil
  | power upper sign digits => cases upper <;> exact stops_cons (by decide) (by decide) _
  | suffix s => cases s <;> exact stops_cons (by decide) (by decide) _

theorem stops_fraction (n : Numeral) : Stops (n.fractionText ++ n.scale.text) := by
  rw [Numeral.fractionText]
  cases n.fraction with
  | none => exact stops_scale n.scale
  | some fraction =>
    obtain ⟨comma, ds⟩ := fraction
    cases comma <;> exact stops_cons (by decide) (by decide) _

theorem unsigned_text (ds : List (Fin 10)) {rest : Arg} (hrest : Stops rest) :
    ∀ c ∈ (digitsText ds ++ rest).head?, c ≠ '-' ∧ c ≠ '+' := by
  have htable : ∀ d : Fin 10, digitChar d ≠ '-' ∧ digitChar d ≠ '+' := by decide
  cases ds with
  | nil => exact hrest.unsigned
  | cons d ds =>
    intro c hc
    rw [← Option.some.inj hc]
    exact htable d

theorem skipPlus_of_unsigned {p : Arg} (hp : ∀ c ∈ p.head?, c ≠ '-' ∧ c ≠ '+') :
    skipPlus p = p := by
  unfold skipPlus
  split
  next => exact absurd rfl (hp '+' rfl).2
  next => rfl

theorem int32_u32 (n : Nat) : int32 (u32 n) = (n : Int).bmod (2 ^ 32) := by
  simp only [int32, u32, Int.bmod_def]
  omega

theorem int32_neg (n : Nat) : int32 (sub32 0 (u32 n)) = (-(n : Int)).bmod (2 ^ 32) := by
  simp only [int32, sub32, u32, Int.bmod_def]
  omega

theorem myAtoi_text (sign : Sign) (ds : List (Fin 10)) {rest : Arg} (hrest : Stops rest) :
    myAtoi (sign.text ++ (digitsText ds ++ rest)) =
      (sign.value * digitsValue ds).bmod (2 ^ 32) := by
  have hdigits := @atoiDigits_text rest 0 (by decide) ds hrest
  have hunsigned := unsigned_text ds hrest
  have hplus := skipPlus_of_unsigned hunsigned
  rw [Nat.zero_mul, Nat.zero_add] at hdigits
  cases sign with
  | absent =>
    have hminus : myAtoi (digitsText ds ++ rest) =
        int32 (atoiDigits 0 (skipPlus (digitsText ds ++ rest))) := by
      unfold myAtoi
      split
      next hp =>
        rw [hp] at hunsigned
        exact absurd rfl (hunsigned '-' rfl).1
      next => rfl
    rw [Sign.text, List.nil_append, hminus, hplus, hdigits, int32_u32, Sign.value, Int.one_mul]
    simp
  | plus =>
    have hminus : myAtoi ('+' :: (digitsText ds ++ rest)) =
        int32 (atoiDigits 0 (digitsText ds ++ rest)) := rfl
    rw [Sign.text, List.singleton_append, hminus, hdigits, int32_u32, Sign.value, Int.one_mul]
    simp
  | minus =>
    have hminus : myAtoi ('-' :: (digitsText ds ++ rest)) =
        int32 (sub32 0 (atoiDigits 0 (skipPlus (digitsText ds ++ rest)))) := rfl
    rw [Sign.text, List.singleton_append, hminus, hplus, hdigits, int32_neg, Sign.value,
      Int.neg_mul, Int.one_mul]

theorem repeat_mul (y x : ℚ) (k : Nat) : Nat.repeat (fun x => x * y) k x = x * y ^ k := by
  induction k with
  | zero => rw [Nat.repeat, pow_zero, mul_one]
  | succ k ih => rw [Nat.repeat, ih, pow_succ, mul_assoc]

theorem scaleBy_exact (exp : Int) (x : ℚ) : scaleBy exact exp x = x * 10 ^ exp := by
  rw [scaleBy]
  split
  next hexp =>
    have hnat := Int.toNat_of_nonneg (Int.le_of_lt hexp)
    have hloop := repeat_mul 10 x exp.toNat
    rw [← zpow_natCast, hnat] at hloop
    exact hloop
  next hexp =>
    have hnat := Int.toNat_of_nonneg (Int.neg_nonneg_of_nonpos (Int.not_lt.mp hexp))
    have hloop := repeat_mul (1 / 10) x (-exp).toNat
    rw [one_div, inv_pow, ← zpow_natCast, hnat, zpow_neg, inv_inv, ← one_div] at hloop
    exact hloop

def scaled (x : ℚ) : Arg → ℚ
  | [] => x
  | c :: p => scaleBy exact (atofExponent c p) x

def pointed (x : ℚ) : Arg → ℚ × Arg
  | '.' :: p => atofFraction exact (exact.ofInt 1) x p
  | ',' :: p => atofFraction exact (exact.ofInt 1) x p
  | p => (x, p)

theorem myAtof_eq (text : Arg) : myAtof exact text =
    let parts := pointed (exact.ofInt (myAtoi (skipSign text))) ((skipSign text).dropWhile isDigit)
    let x := scaled parts.1 parts.2
    if text.head? = some '-' then exact.neg x else x := rfl

theorem scaled_text (scale : Scale) (x : ℚ) :
    scaled x scale.text = x * 10 ^ (scale.exponent.bmod (2 ^ 32)) := by
  cases scale with
  | absent => exact (mul_one x).symm
  | power upper sign digits =>
    have hdigits := myAtoi_text sign digits stops_nil
    rw [List.append_nil] at hdigits
    rw [Scale.exponent, ← hdigits, ← scaleBy_exact]
    cases upper <;> rfl
  | suffix s => cases s <;> exact scaleBy_exact _ x

theorem skipSign_text (sign : Sign) {body : Arg} (hbody : ∀ c ∈ body.head?, c ≠ '-' ∧ c ≠ '+') :
    skipSign (sign.text ++ body) = body := by
  cases sign with
  | absent =>
    change skipSign body = body
    unfold skipSign
    split
    next => exact absurd rfl (hbody '-' rfl).1
    next => exact absurd rfl (hbody '+' rfl).2
    next => rfl
  | plus => rfl
  | minus => rfl

theorem signed_text (sign : Sign) {body : Arg} (hbody : ∀ c ∈ body.head?, c ≠ '-' ∧ c ≠ '+')
    (x : ℚ) :
    (if (sign.text ++ body).head? = some '-' then exact.neg x else x) = sign.value * x := by
  have hone : ((1 : Int) : ℚ) * x = x := by rw [Int.cast_one, one_mul]
  cases sign with
  | absent =>
    have hhead : ¬ body.head? = some '-' := fun h => absurd rfl (hbody '-' h).1
    change (if body.head? = some '-' then exact.neg x else x) = ((1 : Int) : ℚ) * x
    rw [if_neg hhead, hone]
  | plus => exact hone.symm
  | minus =>
    change -x = ((-1 : Int) : ℚ) * x
    rw [Int.cast_neg, neg_mul, hone]

theorem pointed_text (n : Numeral) (x : ℚ) :
    pointed x (n.fractionText ++ n.scale.text) =
      (x + digitsValue n.fractionDigits / 10 ^ n.fractionDigits.length, n.scale.text) := by
  have hone : exact.ofInt 1 = 1 := Int.cast_one
  rw [Numeral.fractionText, Numeral.fractionDigits]
  cases n.fraction with
  | none =>
    have hzero : x + (digitsValue [] : ℚ) / 10 ^ ([] : List (Fin 10)).length = x := by
      rw [digitsValue_nil, Nat.cast_zero, zero_div, add_zero]
    change pointed x n.scale.text =
      (x + (digitsValue [] : ℚ) / 10 ^ ([] : List (Fin 10)).length, n.scale.text)
    rw [hzero]
    cases n.scale with
    | absent => rfl
    | power upper sign digits => cases upper <;> rfl
    | suffix s => cases s <;> rfl
  | some fraction =>
    obtain ⟨comma, ds⟩ := fraction
    have hloop := atofFraction_text 1 x ds (stops_scale n.scale)
    rw [one_mul] at hloop
    rw [← hone] at hloop
    cases comma <;> exact hloop

theorem myAtof_text (n : Numeral) :
    myAtof exact n.text = n.sign.value * ((((digitsValue n.whole : Int).bmod (2 ^ 32) : Int) +
      digitsValue n.fractionDigits / 10 ^ n.fractionDigits.length) *
        10 ^ (n.scale.exponent.bmod (2 ^ 32))) := by
  have hfraction := stops_fraction n
  have hunsigned := unsigned_text n.whole hfraction
  have hwhole := myAtoi_text .absent n.whole hfraction
  have hvalue : Sign.absent.value = 1 := rfl
  rw [Sign.text, List.nil_append, hvalue, Int.one_mul] at hwhole
  rw [myAtof_eq, Numeral.text, skipSign_text n.sign hunsigned, hwhole,
    dropWhile_text n.whole hfraction, pointed_text]
  dsimp only
  rw [signed_text n.sign hunsigned, scaled_text]
  rfl

end Parts

section Wrap

theorem isCoprime_pow_ten {k : Nat} (hk : 0 < k) (c D : Nat) :
    IsCoprime ((2 : Int) ^ c * 10 ^ D) (10 ^ k - 1) := by
  have hten : IsCoprime (10 : Int) (10 ^ k - 1) := by
    obtain ⟨k, rfl⟩ := Nat.exists_eq_succ_of_ne_zero (Nat.ne_of_gt hk)
    refine ⟨10 ^ k, -1, ?_⟩
    rw [Nat.succ_eq_add_one, pow_succ]
    ring
  have htwo : IsCoprime (2 : Int) (10 ^ k - 1) := hten.of_isCoprime_of_dvd_left ⟨5, by norm_num⟩
  exact htwo.pow_left.mul_left hten.pow_left

theorem ne_of_wrapped {w n D k : Nat} {a : Int} (hn : n < 10 ^ D) (ha : a < 2 ^ 31)
    (hwrap : (2 : Int) ^ 32 ∣ w - a) (hpos : 0 < w * 10 ^ D + n) (hk : 0 < k) :
    (w * 10 ^ D + n : Int) ≠ (a * 10 ^ D + n) * 10 ^ k := by
  intro heq
  obtain ⟨s, hs⟩ := hwrap
  have hprod : (2 : Int) ^ 32 * 10 ^ D * s = (a * 10 ^ D + n) * (10 ^ k - 1) := by
    have hw : (w : Int) = a + 2 ^ 32 * s := by omega
    rw [hw] at heq
    linear_combination heq
  have hdvd : (2 : Int) ^ 32 * 10 ^ D ∣ a * 10 ^ D + n :=
    (isCoprime_pow_ten hk 32 D).dvd_of_dvd_mul_right ⟨s, hprod.symm⟩
  have hten : (0 : Int) < 10 ^ D := by positivity
  have hn' : (n : Int) < 10 ^ D := by exact_mod_cast hn
  have hsmall : a * 10 ^ D + n < 2 ^ 32 * 10 ^ D := by
    have hmul := Int.mul_le_mul_of_nonneg_right (show a ≤ 2 ^ 31 - 1 by omega) (Int.le_of_lt hten)
    linarith
  have hfactor : (0 : Int) < (a * 10 ^ D + n) * 10 ^ k := by
    rw [← heq]
    exact_mod_cast hpos
  have hleft : 0 < a * 10 ^ D + n := pos_of_mul_pos_left hfactor (by positivity)
  exact absurd (Int.le_of_dvd hleft hdvd) (Int.not_le.mpr hsmall)

theorem bmod_bounds (x : Int) : -2 ^ 31 ≤ x.bmod (2 ^ 32) ∧ x.bmod (2 ^ 32) < 2 ^ 31 := by
  simp only [Int.bmod_def]
  omega

theorem bmod_eq_self {x : Int} (hx : -2 ^ 31 ≤ x ∧ x < 2 ^ 31) : x.bmod (2 ^ 32) = x := by
  simp only [Int.bmod_def]
  omega

theorem dvd_sub_bmod (x : Int) : (2 : Int) ^ 32 ∣ x - x.bmod (2 ^ 32) := by
  simp only [Int.bmod_def]
  omega

/-- A whole part that wraps around is never made up for by the exponent. -/
theorem scaled_ne_of_wrapped {w n D : Nat} (hn : n < 10 ^ D) (hw : 2 ^ 31 ≤ w) (e e' : Int) :
    ((((w : Int).bmod (2 ^ 32) : Int) : ℚ) + n / 10 ^ D) * 10 ^ e' ≠
      (w + n / 10 ^ D) * 10 ^ e := by
  intro heq
  have hten : (0 : ℚ) < 10 ^ D := by positivity
  have hfrac : (0 : ℚ) ≤ n / 10 ^ D := by positivity
  have hw0 : (0 : ℚ) ≤ w := by positivity
  have hbounds := bmod_bounds w
  have hwrap := dvd_sub_bmod w
  generalize (w : Int).bmod (2 ^ 32) = a at heq hbounds hwrap
  have hless : (a : ℚ) < w := by
    have haw : a < w := by omega
    exact_mod_cast haw
  by_cases hexp : e' ≤ e
  · have hpow : (10 : ℚ) ^ e' ≤ 10 ^ e := zpow_le_zpow_right₀ (by norm_num) hexp
    have hpos : (0 : ℚ) < 10 ^ e' := by positivity
    have hbelow : ((a : ℚ) + n / 10 ^ D) * 10 ^ e' < (w + n / 10 ^ D) * 10 ^ e' :=
      mul_lt_mul_of_pos_right (by linarith) hpos
    have habove : ((w : ℚ) + n / 10 ^ D) * 10 ^ e' ≤ (w + n / 10 ^ D) * 10 ^ e :=
      mul_le_mul_of_nonneg_left hpow (by linarith)
    linarith
  · obtain ⟨k, hk⟩ := Int.eq_ofNat_of_zero_le (show 0 ≤ e' - e by omega)
    have hsplit : (10 : ℚ) ^ e' = 10 ^ k * 10 ^ e := by
      rw [← zpow_natCast, ← zpow_add₀ (by norm_num)]
      congr 1
      omega
    have hpos : (10 : ℚ) ^ e ≠ 0 := by positivity
    rw [hsplit, ← mul_assoc] at heq
    have hscaled := mul_right_cancel₀ hpos heq
    have hint : ((w : ℚ) * 10 ^ D + n) = (a * 10 ^ D + n) * 10 ^ k := by
      have hD : (10 : ℚ) ^ D ≠ 0 := ne_of_gt hten
      field_simp at hscaled
      linarith
    have hmantissa : 0 < w * 10 ^ D + n := by
      have hw1 : 0 < w := by omega
      positivity
    have hk0 : 0 < k := by omega
    exact ne_of_wrapped hn hbounds.2 hwrap hmantissa hk0 (by exact_mod_cast hint)

theorem scaled_eq_iff {w n D : Nat} (hn : n < 10 ^ D) (e : Int) :
    ((((w : Int).bmod (2 ^ 32) : Int) : ℚ) + n / 10 ^ D) * 10 ^ (e.bmod (2 ^ 32)) =
        (w + n / 10 ^ D) * 10 ^ e ↔
      (w : ℚ) + n / 10 ^ D = 0 ∨ w < 2 ^ 31 ∧ -2 ^ 31 ≤ e ∧ e < 2 ^ 31 := by
  constructor
  · intro heq
    by_contra hnone
    rw [not_or] at hnone
    obtain ⟨hne, hrange⟩ := hnone
    by_cases hw : w < 2 ^ 31
    · rw [bmod_eq_self ⟨by omega, by omega⟩, Int.cast_natCast] at heq
      have hpow := mul_left_cancel₀ hne heq
      have hexp := zpow_right_injective₀ (by norm_num) (by norm_num) hpow
      have hbounds := bmod_bounds e
      rw [hexp] at hbounds
      exact hrange ⟨hw, hbounds⟩
    · exact scaled_ne_of_wrapped hn (not_lt.mp hw) e _ heq
  · rintro (hzero | ⟨hw, he⟩)
    · have hfrac : (0 : ℚ) ≤ n / 10 ^ D := by positivity
      have hw0 : (0 : ℚ) ≤ w := by positivity
      have hw : (w : ℚ) = 0 := by linarith
      have hn0 : (n : ℚ) / 10 ^ D = 0 := by linarith
      have hnat : w = 0 := by exact_mod_cast hw
      rw [hnat, hn0, Nat.cast_zero, Int.zero_bmod, Int.cast_zero, add_zero, zero_mul, Nat.cast_zero,
        add_zero, zero_mul]
    · rw [bmod_eq_self he, bmod_eq_self ⟨by omega, by omega⟩, Int.cast_natCast]

end Wrap

/-- The parser reads a number exactly when the number is zero, or its whole part and its exponent
fit 32 bits. -/
theorem reads_numeral_iff (n : Numeral) :
    myAtof exact n.text = n.value ↔ n.mantissa = 0 ∨
      digitsValue n.whole < 2 ^ 31 ∧ -2 ^ 31 ≤ n.scale.exponent ∧ n.scale.exponent < 2 ^ 31 := by
  have hsign : (n.sign.value : ℚ) ≠ 0 := by
    cases n.sign <;> simp [Sign.value]
  have hlt := digitsValue_lt n.fractionDigits
  rw [myAtof_text, Numeral.value, mul_right_inj' hsign, Numeral.mantissa, scaled_eq_iff hlt]

/-- A whole part of ten digits. -/
theorem not_reads_numeral :
    let n : Numeral := ⟨.absent, [4, 0, 0, 0, 0, 0, 0, 0, 0, 0], none, .absent⟩
    n.text = "4000000000".toList ∧ myAtof exact n.text ≠ n.value := by
  decide +kernel

end NanoVNA.FloatNumerals
