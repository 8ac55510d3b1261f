import Mathlib.Algebra.Order.Floor.Semiring
import Mathlib.Data.Rat.Floor
import NanoVNA.KeypadInput

namespace NanoVNA.KeypadUnits

open NanoVNA.ShellArguments NanoVNA.Word32 NanoVNA.FloatText NanoVNA.FloatNumerals
open NanoVNA.KeypadInput
open NanoVNA.LineParser (nul)
open NanoVNA.UnsignedText (numberOf isDigitOf isReadAs readValue digitValue denoted misread)

/-! ### The number of a text -/

def wholeOf (text : List Char) : List Char := text.takeWhile (· ≠ '.')

def fractionOf (text : List Char) : List Char := (text.dropWhile (· ≠ '.')).drop 1

def digitsOf (cs : List Char) : Nat := numberOf 10 (cs.map fun c => c.toNat - '0'.toNat)

def decimal (text : List Char) : ℚ :=
  digitsOf (wholeOf text) + digitsOf (fractionOf text) / 10 ^ (fractionOf text).length

def textOf (buf : List Char) : List Char := buf.takeWhile (· ≠ nul)

/-- The callback takes the number, or its whole part where it reads an unsigned number. -/
def Reads : Getter → List Char → ℚ → Prop
  | .uint, text, x => myAtoui text = ⌊x⌋₊
  | .float, text, x => myAtof exact text = x
  | .digits, _, _ => True

/-- What the keys leave: a string in the buffer, no loop that runs on, and, behind a unit key, the
number that was typed times the unit, if it has no more digits than fit. -/
structure Sound (mode : KeypadMode) (keys : List Key) (r : Click) : Prop where
  size : r.buf.length = kpBufSize
  ended : nul ∈ r.buf
  prompt : r.rounds ≤ 9
  value : ∀ text c scale, entered (maxLength mode) keys [] = (text, some c) →
    unitScale c = some scale → text ≠ [] → decimal text * 10 ^ scale < 10 ^ numInputLen →
      decimal (textOf r.buf) = decimal text * 10 ^ scale ∧
        Reads (keypadsModeTbl mode).2 (textOf r.buf) (decimal text * 10 ^ scale)

/-- The keypad starts with an empty text; what else is in the buffer is left from before. -/
def Meets (mode : KeypadMode) (keys : List Key) : Prop :=
  ∀ stale : List Char, stale.length = numInputLen + 1 →
    ∃ r, keypadRun (maxLength mode) keys (nul :: stale) = some r ∧ Sound mode keys r

/-- The values of 32 bits, which `my_atof` takes with a sign. -/
def limit : Getter → ℚ
  | .float => 2 ^ 31
  | _ => 2 ^ 32

/-- Behind a unit key, the number has a place left in front of its point; and its digits as they are
typed and its value fit, or it is zero, or it has too many digits. -/
def Fits (mode : KeypadMode) (keys : List Key) : Prop :=
  ∀ text c scale, entered (maxLength mode) keys [] = (text, some c) →
    unitScale c = some scale → text ≠ [] →
      (wholeOf text).length < numInputLen ∧
        (10 ^ numInputLen ≤ decimal text * 10 ^ scale ∨ decimal text = 0 ∨
          (wholeOf text).length + scale ≤ numInputLen ∧
            decimal text * 10 ^ scale < limit (keypadsModeTbl mode).2)

/-! ### Decimal numbers -/

structure Decimal where
  whole : List (Fin 10)
  fraction : Option (List (Fin 10))

namespace Decimal

variable (d : Decimal)

def numeral : Numeral := ⟨.absent, d.whole, d.fraction.map (false, ·), .absent⟩

def pointText : List Char :=
  match d.fraction with
  | none => []
  | some ds => '.' :: digitsText ds

def text : List Char := digitsText d.whole ++ d.pointText

def value : ℚ := d.numeral.mantissa

def shift : Decimal :=
  match d.fraction with
  | none => ⟨d.whole ++ [0], none⟩
  | some [] => ⟨d.whole ++ [0], some []⟩
  | some (f :: ds) => ⟨d.whole ++ [f], some ds⟩

theorem numeral_text : d.numeral.text = d.text := by
  obtain ⟨whole, fraction⟩ := d
  cases fraction <;> simp [numeral, Numeral.text, Sign.text, Numeral.fractionText, Scale.text, text,
    pointText]

theorem value_eq : d.value = digitsValue d.whole +
    digitsValue (d.fraction.getD []) / 10 ^ (d.fraction.getD []).length := by
  obtain ⟨whole, fraction⟩ := d
  cases fraction <;> rfl

theorem shift_value : d.shift.value = d.value * 10 := by
  have hzero : ((0 : Fin 10) : Nat) = 0 := rfl
  rw [value_eq, value_eq]
  obtain ⟨whole, fraction⟩ := d
  rcases fraction with _ | _ | ⟨f, ds⟩
  · simp only [shift, digitsValue_concat, Option.getD_none, digitsValue_nil, hzero]
    push_cast
    ring
  · simp only [shift, digitsValue_concat, Option.getD_some, digitsValue_nil, hzero]
    push_cast
    ring
  · simp only [shift, digitsValue_concat, Option.getD_some, digitsValue_cons, List.length_cons]
    push_cast
    have hpow : (10 : ℚ) ^ ds.length ≠ 0 := pow_ne_zero _ (by norm_num)
    field_simp
    ring

theorem shift_length : d.shift.whole.length = d.whole.length + 1 := by
  obtain ⟨whole, fraction⟩ := d
  rcases fraction with _ | _ | ⟨f, ds⟩ <;> simp [shift]

/-! The text of a decimal number is read as its number. -/

theorem point_ne_digitChar (f : Fin 10) : digitChar f ≠ '.' := by
  have htable : ∀ f : Fin 10, digitChar f ≠ '.' := by decide
  exact htable f

theorem mem_digitsText {ds : List (Fin 10)} {c : Char} (hc : c ∈ digitsText ds) :
    ∃ f, c = digitChar f := by
  obtain ⟨f, -, rfl⟩ := List.mem_map.mp hc
  exact ⟨f, rfl⟩

theorem digitsOf_text (ds : List (Fin 10)) : digitsOf (digitsText ds) = digitsValue ds := by
  have hdigit : ∀ f : Fin 10, (digitChar f).toNat - '0'.toNat = f := by decide
  rw [digitsOf, digitsText, List.map_map, digitsValue]
  congr 1
  exact List.map_congr_left fun f _ => hdigit f

theorem takeWhile_text {p : Char → Bool} (hdigit : ∀ f : Fin 10, p (digitChar f) = true)
    (hpoint : p '.' = false) : d.text.takeWhile p = digitsText d.whole := by
  have hdigits : ∀ c ∈ digitsText d.whole, p c = true := by
    intro c hc
    obtain ⟨f, rfl⟩ := mem_digitsText hc
    exact hdigit f
  have hrest : d.pointText.takeWhile p = [] := by
    rw [pointText]
    cases d.fraction with
    | none => rfl
    | some ds => rw [List.takeWhile_cons, hpoint, if_neg Bool.false_ne_true]
  rw [text, List.takeWhile_append_of_pos hdigits, hrest, List.append_nil]

theorem dropWhile_text {p : Char → Bool} (hdigit : ∀ f : Fin 10, p (digitChar f) = true)
    (hpoint : p '.' = false) : d.text.dropWhile p = d.pointText := by
  have hsplit := @List.takeWhile_append_dropWhile _ p d.text
  rw [takeWhile_text d hdigit hpoint] at hsplit
  exact List.append_cancel_left hsplit

theorem wholeOf_text : wholeOf d.text = digitsText d.whole :=
  takeWhile_text d (fun f => decide_eq_true (point_ne_digitChar f)) rfl

theorem fractionOf_text : fractionOf d.text = digitsText (d.fraction.getD []) := by
  rw [fractionOf, dropWhile_text d (fun f => decide_eq_true (point_ne_digitChar f)) rfl, pointText]
  cases d.fraction <;> rfl

theorem length_digitsText (ds : List (Fin 10)) : (digitsText ds).length = ds.length :=
  List.length_map _

theorem decimal_text : decimal d.text = d.value := by
  rw [decimal, wholeOf_text, fractionOf_text, digitsOf_text, digitsOf_text, length_digitsText,
    value_eq]

theorem forall_text {P : Char → Prop} (hdigit : ∀ f : Fin 10, P (digitChar f)) (hpoint : P '.') :
    ∀ c ∈ d.text, P c := by
  have hdigits : ∀ ds : List (Fin 10), ∀ c ∈ digitsText ds, P c := by
    intro ds c hc
    obtain ⟨f, rfl⟩ := mem_digitsText hc
    exact hdigit f
  intro c hc
  obtain hc | hc := List.mem_append.mp hc
  · exact hdigits _ c hc
  · rw [pointText] at hc
    cases hfraction : d.fraction with
    | none =>
      rw [hfraction] at hc
      cases hc
    | some ds =>
      rw [hfraction] at hc
      obtain rfl | hc := List.mem_cons.mp hc
      · exact hpoint
      · exact hdigits ds c hc

theorem text_ne_nul : ∀ c ∈ d.text, c ≠ nul :=
  forall_text d digitChar_ne_nul (by decide)

theorem fraction_bounds :
    (0 : ℚ) ≤ digitsValue (d.fraction.getD []) / 10 ^ (d.fraction.getD []).length ∧
      (digitsValue (d.fraction.getD []) : ℚ) / 10 ^ (d.fraction.getD []).length < 1 := by
  have hlt := digitsValue_lt (d.fraction.getD [])
  have hpow : (0 : ℚ) < 10 ^ (d.fraction.getD []).length := by positivity
  refine ⟨by positivity, ?_⟩
  rw [div_lt_one hpow]
  exact_mod_cast hlt

theorem value_nonneg : 0 ≤ d.value := by
  have hfraction := (fraction_bounds d).1
  rw [value_eq]
  positivity

theorem value_lt_iff (n : Nat) : d.value < n ↔ digitsValue d.whole < n := by
  obtain ⟨hlow, hhigh⟩ := fraction_bounds d
  rw [value_eq]
  constructor
  · intro h
    have hcast : (digitsValue d.whole : ℚ) < n := by linarith
    exact_mod_cast hcast
  · intro h
    have hcast : (digitsValue d.whole : ℚ) + 1 ≤ n := by exact_mod_cast h
    linarith

theorem floor_value : ⌊d.value⌋₊ = digitsValue d.whole := by
  obtain ⟨hlow, hhigh⟩ := fraction_bounds d
  rw [Nat.floor_eq_iff d.value_nonneg, value_eq]
  exact ⟨by linarith, by linarith⟩

theorem text_marks : ∀ c ∈ d.text, (c ≠ '-' ∧ c ≠ '+') ∧ c ≠ 'x' ∧ c ≠ 'o' ∧ c ≠ 'b' := by
  have htable : ∀ f : Fin 10, (digitChar f ≠ '-' ∧ digitChar f ≠ '+') ∧ digitChar f ≠ 'x' ∧
      digitChar f ≠ 'o' ∧ digitChar f ≠ 'b' := by decide
  exact forall_text d htable (by decide)

theorem atouiRadix_text : atouiRadix d.text = (10, d.text) := by
  have hmarks := text_marks d
  unfold atouiRadix
  split
  next heq => exact absurd rfl (hmarks 'x' (heq ▸ by simp)).2.1
  next heq => exact absurd rfl (hmarks 'o' (heq ▸ by simp)).2.2.1
  next heq => exact absurd rfl (hmarks 'b' (heq ▸ by simp)).2.2.2
  next => rfl

theorem myAtoui_text : myAtoui d.text = digitsValue d.whole % 2 ^ 32 := by
  have hplus : skipPlus d.text = d.text :=
    skipPlus_of_unsigned fun c hc => (text_marks d c (List.mem_of_mem_head? hc)).1
  have hdigit : ∀ f : Fin 10, isDigitOf 10 (digitChar f) = true := by decide
  have hvalues : ∀ f : Fin 10, (digitValue (digitChar f)).getD 0 = f := by decide
  have hmisread : misread 10 d.text = [] := by
    rw [misread, dropWhile_text d hdigit rfl, pointText]
    cases d.fraction with
    | none => rfl
    | some ds =>
      have hpoint : isReadAs 10 '.' = false := rfl
      rw [List.takeWhile_cons, hpoint, if_neg Bool.false_ne_true]
  have hdenoted : denoted d.text = digitsValue d.whole := by
    rw [denoted, hplus, atouiRadix_text]
    dsimp only
    rw [takeWhile_text d hdigit rfl, digitsText, List.map_map, digitsValue]
    congr 1
    exact List.map_congr_left fun f _ => hvalues f
  have hvalue := UnsignedText.myAtoui_eq d.text
  rw [hdenoted, hplus, atouiRadix_text] at hvalue
  dsimp only at hvalue
  rw [hvalue, hmisread, List.length_nil, Nat.pow_zero, Nat.mul_one]
  rfl

theorem myAtof_text_iff :
    myAtof exact d.text = d.value ↔ d.value = 0 ∨ digitsValue d.whole < 2 ^ 31 := by
  have hlt := digitsValue_lt d.numeral.fractionDigits
  have hscaled := @scaled_eq_iff (digitsValue d.whole) _ _ hlt 0
  have hsign : d.numeral.sign.value = 1 := rfl
  have hexponent : d.numeral.scale.exponent = 0 := rfl
  rw [← numeral_text, myAtof_text, hsign, hexponent, Int.cast_one, one_mul]
  rw [zpow_zero, mul_one] at hscaled
  have hvalue : d.value = digitsValue d.whole +
      digitsValue d.numeral.fractionDigits / 10 ^ d.numeral.fractionDigits.length := rfl
  have hbounds : (-2 ^ 31 : Int) ≤ 0 ∧ (0 : Int) < 2 ^ 31 := by decide
  rw [hvalue]
  refine hscaled.trans (or_congr_right ?_)
  exact and_iff_left hbounds

end Decimal

/-! ### The loop of a unit key -/

section Rounds

theorem store_cons (a : Char) (buf : List Char) (i : Nat) (c : Char) :
    store (a :: buf) (i + 1) c = (store buf i c).map (a :: ·) := by
  simp only [store, List.length_cons, List.set_cons_succ, Nat.add_lt_add_iff_right]
  split <;> rfl

theorem unitRound_cons (a : Char) (buf : List Char) (i : Nat) :
    unitRound (i + 1) (a :: buf) = (unitRound i buf).map (a :: ·) := by
  simp only [unitRound, List.getElem?_cons_succ, Option.bind_eq_bind, Option.map_bind, store_cons,
    Option.bind_map, Function.comp_def]
  refine Option.bind_congr fun v _ => Option.bind_congr fun point _ => ?_
  split <;> simp only [Option.map_bind, Function.comp_def]

theorem unitRound_swap {point v : Char} (hpoint : point ≠ nul) (hv : v ≠ nul)
    (front rest : List Char) :
    unitRound front.length (front ++ point :: v :: rest) = some (front ++ v :: point :: rest) := by
  induction front with
  | nil => simp [unitRound, store, hpoint, hv]
  | cons a front ih =>
    rw [List.length_cons, List.cons_append, unitRound_cons, ih]
    rfl

theorem unitRound_end {point v : Char} (hend : v = nul ∨ point = nul) (front : List Char)
    (x : Char) (rest : List Char) :
    unitRound front.length (front ++ point :: v :: x :: rest) =
      some (front ++ '0' :: point :: nul :: rest) := by
  induction front with
  | nil => simp [unitRound, store, hend]
  | cons a front ih =>
    rw [List.length_cons, List.cons_append, unitRound_cons, ih]
    rfl

variable {buf : List Char} {d : Decimal}

theorem unitRound_shift (h : Holding buf d.text) (hroom : d.whole.length < numInputLen) :
    ∃ buf', unitRound d.whole.length buf = some buf' ∧ Holding buf' d.shift.text := by
  have hsize : kpBufSize = numInputLen + 2 := rfl
  have hzero : digitChar 0 = '0' := rfl
  have hlength := h.length
  obtain ⟨rest, hsplit⟩ := h.split
  have hholding : ∀ buf', buf'.length = kpBufSize → (∃ rest', buf' = d.shift.text ++ nul :: rest') →
      Holding buf' d.shift.text := fun buf' hlength' hsplit' =>
    ⟨hlength', d.shift.text_ne_nul, hsplit'⟩
  obtain ⟨whole, fraction⟩ := d
  have hfront := Decimal.length_digitsText whole
  dsimp only at hroom ⊢
  rcases fraction with _ | _ | ⟨f, ds⟩
  · obtain ⟨v, x, rest, rfl⟩ : ∃ v x rest', rest = v :: x :: rest' := by
      have hrest : 2 ≤ rest.length := by
        have hcount := congrArg List.length hsplit
        simp only [Decimal.text, Decimal.pointText, List.append_nil, List.length_append, hfront,
          List.length_cons] at hcount
        omega
      match rest, hrest with
      | v :: x :: rest', _ => exact ⟨v, x, rest', rfl⟩
    have hbuf : buf = digitsText whole ++ nul :: v :: x :: rest := by
      rw [hsplit, Decimal.text, Decimal.pointText, List.append_nil]
    rw [← hfront, hbuf, unitRound_end (Or.inr rfl)]
    refine ⟨_, rfl, hholding _ ?_ ⟨nul :: rest, ?_⟩⟩
    · rw [← hlength, hbuf]
      simp
    · simp [Decimal.shift, Decimal.text, Decimal.pointText, digitsText, hzero]
  · obtain ⟨x, rest, rfl⟩ : ∃ x rest', rest = x :: rest' := by
      have hrest : 1 ≤ rest.length := by
        have hcount := congrArg List.length hsplit
        simp only [Decimal.text, Decimal.pointText, List.length_append, hfront,
          List.length_cons, Decimal.length_digitsText, List.length_nil] at hcount
        omega
      match rest, hrest with
      | x :: rest', _ => exact ⟨x, rest', rfl⟩
    have hbuf : buf = digitsText whole ++ '.' :: nul :: x :: rest := by
      rw [hsplit, Decimal.text, Decimal.pointText, List.append_assoc]
      rfl
    rw [← hfront, hbuf, unitRound_end (Or.inl rfl)]
    refine ⟨_, rfl, hholding _ ?_ ⟨rest, ?_⟩⟩
    · rw [← hlength, hbuf]
      simp
    · simp [Decimal.shift, Decimal.text, Decimal.pointText, digitsText, hzero]
  · have hbuf : buf = digitsText whole ++ '.' :: digitChar f :: (digitsText ds ++ nul :: rest) := by
      rw [hsplit, Decimal.text, Decimal.pointText, List.append_assoc]
      rfl
    rw [← hfront, hbuf, unitRound_swap (by decide) (digitChar_ne_nul f)]
    refine ⟨_, rfl, hholding _ ?_ ⟨rest, ?_⟩⟩
    · rw [← hlength, hbuf]
      simp
    · simp [Decimal.shift, Decimal.text, Decimal.pointText, digitsText]

/-- Without a place in front of the point the first round stores behind the buffer. -/
theorem unitRound_full (h : Holding buf d.text) (hfull : d.whole.length = numInputLen) :
    unitRound numInputLen buf = none := by
  have hsize : kpBufSize = numInputLen + 2 := rfl
  have hlength := h.length
  have hlt := h.length_lt
  obtain ⟨rest, hsplit⟩ := h.split
  have hend : buf[d.text.length]? = some nul := by
    rw [hsplit, List.getElem?_append_right (Nat.le_refl _), Nat.sub_self]
    rfl
  have htext : numInputLen ≤ d.text.length := by
    rw [Decimal.text, List.length_append, Decimal.length_digitsText, hfull]
    exact Nat.le_add_right _ _
  have hv := List.getElem?_eq_getElem (l := buf) (i := numInputLen + 1) (by omega)
  have hpoint := List.getElem?_eq_getElem (l := buf) (i := numInputLen) (by omega)
  have hends : buf[numInputLen + 1] = nul ∨ buf[numInputLen] = nul := by
    obtain hfirst | hsecond : d.text.length = numInputLen ∨ d.text.length = numInputLen + 1 := by
      omega
    · rw [hfirst, hpoint] at hend
      exact Or.inr (Option.some.inj hend)
    · rw [hsecond, hv] at hend
      exact Or.inl (Option.some.inj hend)
  have hstore : store buf (numInputLen + 2) nul = none := if_neg (by omega)
  rw [unitRound, hv, hpoint, Option.bind_eq_bind, Option.bind_some, Option.bind_eq_bind,
    Option.bind_some, if_pos hends, hstore]
  rfl

theorem unitRounds_shift {n : Nat} (h : Holding buf d.text)
    (hroom : d.whole.length + n ≤ numInputLen) :
    ∃ buf', unitRounds n d.whole.length buf = some buf' ∧
      Holding buf' (Decimal.shift^[n] d).text := by
  induction n generalizing buf d with
  | zero => exact ⟨buf, rfl, h⟩
  | succ n ih =>
    obtain ⟨buf', hround, h'⟩ := unitRound_shift h (by omega)
    have hlength := d.shift_length
    obtain ⟨buf'', hrounds, h''⟩ := ih h' (by omega)
    rw [hlength] at hrounds
    rw [unitRounds, hround]
    exact ⟨buf'', hrounds, h''⟩

theorem shifts_value (n : Nat) (d : Decimal) :
    (Decimal.shift^[n] d).value = d.value * 10 ^ n := by
  induction n generalizing d with
  | zero => rw [pow_zero, mul_one, Function.iterate_zero_apply]
  | succ n ih => rw [Function.iterate_succ_apply, ih, Decimal.shift_value, pow_succ', mul_assoc]

theorem textOf_holding {text : List Char} (h : Holding buf text) : textOf buf = text := by
  obtain ⟨rest, rfl⟩ := h.split
  have hchars : ∀ c ∈ text, decide (c ≠ nul) = true := fun c hc => decide_eq_true (h.chars c hc)
  rw [textOf, List.takeWhile_append_of_pos hchars, List.takeWhile_cons, if_neg (by decide),
    List.append_nil]

end Rounds

theorem reads_iff {g : Getter} (hg : g ≠ .digits) (d : Decimal) :
    Reads g d.text d.value ↔ d.value < limit g := by
  cases g with
  | digits => exact absurd rfl hg
  | uint =>
    have hlimit : limit .uint = (2 ^ 32 : ℕ) := by norm_num [limit]
    rw [Reads, Decimal.myAtoui_text, Decimal.floor_value, Nat.mod_eq_iff_lt (by decide), hlimit,
      d.value_lt_iff]
  | float =>
    have hlimit : limit .float = (2 ^ 31 : ℕ) := by norm_num [limit]
    rw [Reads, Decimal.myAtof_text_iff, hlimit, d.value_lt_iff]
    refine or_iff_right_of_imp fun hzero => (d.value_lt_iff _).mp ?_
    rw [hzero]
    norm_num

/-! ### The number that is typed -/

theorem typeKey_decimal (maxlength : Nat) (d : Decimal) {c : Key} (hc : c ≠ .minus) :
    ∃ d' : Decimal, typeKey maxlength d.text c = d'.text := by
  cases c with
  | minus => exact absurd rfl hc
  | digit f =>
    rw [typeKey]
    split
    · obtain ⟨whole, _ | ds⟩ := d
      · exact ⟨⟨whole ++ [f], none⟩, by simp [Decimal.text, Decimal.pointText, digitsText]⟩
      · exact ⟨⟨whole, some (ds ++ [f])⟩, by simp [Decimal.text, Decimal.pointText, digitsText]⟩
    · exact ⟨d, rfl⟩
  | period =>
    rw [typeKey]
    split
    next hroom =>
      obtain ⟨whole, _ | ds⟩ := d
      · exact ⟨⟨whole, some []⟩, by simp [Decimal.text, Decimal.pointText, digitsText]⟩
      · exact absurd (List.mem_append_right _ List.mem_cons_self) hroom.2.1
    · exact ⟨d, rfl⟩
  | bs =>
    rw [typeKey]
    obtain ⟨whole, _ | ds⟩ := d
    · exact ⟨⟨whole.dropLast, none⟩, by
        simp [Decimal.text, Decimal.pointText, digitsText, List.map_dropLast]⟩
    · cases ds with
      | nil => exact ⟨⟨whole, none⟩, by simp [Decimal.text, Decimal.pointText, digitsText]⟩
      | cons f ds =>
        exact ⟨⟨whole, some (f :: ds).dropLast⟩, by
          simp [Decimal.text, Decimal.pointText, digitsText, List.dropLast_append_of_ne_nil,
            List.map_dropLast]⟩
  | k | M | G | m | u | n | p | x1 | enter | percent => exact ⟨d, rfl⟩

theorem entered_decimal {maxlength : Nat} {keys : List Key} (hkeys : Key.minus ∉ keys)
    (d : Decimal) : ∃ d' : Decimal, (entered maxlength keys d.text).1 = d'.text := by
  induction keys generalizing d with
  | nil => exact ⟨d, rfl⟩
  | cons c keys ih =>
    obtain ⟨hc, hkeys⟩ := List.ne_and_not_mem_of_not_mem_cons hkeys
    rw [entered]
    split
    · exact ⟨d, rfl⟩
    · obtain ⟨d', htype⟩ := typeKey_decimal maxlength d (Ne.symm hc)
      rw [htype]
      exact ih hkeys d'

theorem entered_mem {maxlength : Nat} {keys : List Key} {text : List Char} {c : Key}
    (h : (entered maxlength keys text).2 = some c) : c ∈ keys := by
  induction keys generalizing text with
  | nil => cases h
  | cons c' keys ih =>
    rw [entered] at h
    split at h
    · cases h
      exact List.mem_cons_self
    · exact List.mem_cons_of_mem _ (ih h)

theorem unit_mode (mode : KeypadMode) {c : Key} {scale : Nat}
    (hc : c ∈ (keypadsModeTbl mode).1.keys) (hunit : unitScale c = some scale) :
    Key.minus ∉ (keypadsModeTbl mode).1.keys ∧ maxLength mode = numInputLen ∧
      (keypadsModeTbl mode).2 ≠ .digits := by
  have hmode : (∀ c ∈ (keypadsModeTbl mode).1.keys, unitScale c = none) ∨
      Key.minus ∉ (keypadsModeTbl mode).1.keys ∧ maxLength mode = numInputLen ∧
        (keypadsModeTbl mode).2 ≠ .digits := by
    cases mode <;> decide
  refine hmode.resolve_left fun hnone => ?_
  rw [hnone c hc] at hunit
  cases hunit

def steps (scale : Nat) (d : Decimal) : Nat := min scale (numInputLen - d.whole.length)

section Close

variable {buf : List Char} {d : Decimal} {c : Key} {scale : Nat}

theorem unitScale_bounds (hunit : unitScale c = some scale) : 0 < scale ∧ scale ≤ 9 := by
  cases c <;> cases hunit <;> decide

theorem close_unit (h : Holding buf d.text) (hunit : unitScale c = some scale)
    (hroom : d.whole.length < numInputLen) (kpIndex : Nat) :
    ∃ buf', close c kpIndex buf = some ⟨.done, steps scale d, buf'⟩ ∧
      Holding buf' (Decimal.shift^[steps scale d] d).text := by
  have hpos := (unitScale_bounds hunit).1
  have hperiod : periodPos buf = some d.whole.length := by
    rw [h.periodPos, ← Decimal.length_digitsText, ← Decimal.wholeOf_text]
    rfl
  have hscale : (if numInputLen < scale + d.whole.length then
      (2 ^ 16 + numInputLen - d.whole.length) % 2 ^ 16 else scale) = steps scale d := by
    have hnum : numInputLen = 12 := rfl
    rw [steps]
    split <;> omega
  have hrounds : roundsOf (steps scale d) = steps scale d := by
    rw [roundsOf, if_neg]
    rw [steps]
    omega
  obtain ⟨buf', hloop, h'⟩ := unitRounds_shift (n := steps scale d) h (by rw [steps]; omega)
  rw [close, hunit, hperiod]
  dsimp only [Option.bind_eq_bind, Option.bind_some]
  rw [hscale, hrounds, hloop]
  exact ⟨buf', rfl, h'⟩

theorem close_full (h : Holding buf d.text) (hunit : unitScale c = some scale)
    (hfull : d.whole.length = numInputLen) (kpIndex : Nat) : close c kpIndex buf = none := by
  have hpos := (unitScale_bounds hunit).1
  have hperiod : periodPos buf = some numInputLen := by
    rw [h.periodPos, ← hfull, ← Decimal.length_digitsText, ← Decimal.wholeOf_text]
    rfl
  have hscale : (if numInputLen < scale + numInputLen then
      (2 ^ 16 + numInputLen - numInputLen) % 2 ^ 16 else scale) = 0 := if_pos (by omega)
  have hrounds : roundsOf 0 = (2 ^ 16 - 1) + 1 := rfl
  rw [close, hunit, hperiod]
  dsimp only [Option.bind_eq_bind, Option.bind_some]
  rw [hscale, hrounds, unitRounds, unitRound_full h hfull]
  rfl

theorem value_iff {g : Getter} (hg : g ≠ .digits) (hroom : d.whole.length < numInputLen) :
    (d.value * 10 ^ scale < 10 ^ numInputLen →
      (Decimal.shift^[steps scale d] d).value = d.value * 10 ^ scale ∧
        Reads g (Decimal.shift^[steps scale d] d).text (d.value * 10 ^ scale)) ↔
      10 ^ numInputLen ≤ d.value * 10 ^ scale ∨ d.value = 0 ∨
        d.whole.length + scale ≤ numInputLen ∧ d.value * 10 ^ scale < limit g := by
  have hten : (1 : ℚ) < 10 := by norm_num
  have hshifts := shifts_value (steps scale d) d
  have hreads := reads_iff hg (Decimal.shift^[steps scale d] d)
  have hsteps : steps scale d = scale ↔ d.whole.length + scale ≤ numInputLen := by
    rw [steps]
    omega
  rw [imp_iff_not_or, not_lt]
  refine or_congr_right ?_
  by_cases hzero : d.value = 0
  · rw [hzero, zero_mul] at hshifts ⊢
    rw [hshifts] at hreads
    have hlimit : 0 < limit g := by cases g <;> norm_num [limit]
    exact iff_of_true ⟨hshifts, hreads.mpr hlimit⟩ (Or.inl rfl)
  · have hvalue : (Decimal.shift^[steps scale d] d).value = d.value * 10 ^ scale ↔
        d.whole.length + scale ≤ numInputLen := by
      rw [hshifts, mul_right_inj' hzero, ← hsteps]
      exact (pow_right_injective₀ (by linarith) hten.ne').eq_iff
    rw [or_iff_right hzero, hvalue]
    refine and_congr_right fun hfits => ?_
    rw [hvalue.mpr hfits] at hreads
    exact hreads

theorem close_other {text : List Char} (h : Holding buf text) (hlength : text.length ≤ numInputLen)
    (hunit : unitScale c = none) :
    ∃ r, close c text.length buf = some r ∧ r.buf.length = kpBufSize ∧ nul ∈ r.buf ∧
      r.rounds = 0 := by
  have hsize : kpBufSize = numInputLen + 2 := rfl
  have hbuf := h.length
  have hstored : ∀ {buf : List Char} {i : Nat} {x : Char}, i < buf.length →
      store buf i x = some (buf.set i x) := fun hi => if_pos hi
  rw [close, hunit]
  cases prefixOf c with
  | none => exact ⟨_, rfl, hbuf, h.ended, rfl⟩
  | some letter =>
    dsimp only [Option.bind_eq_bind]
    rw [hstored (by omega), Option.bind_some, hstored (by rw [List.length_set]; omega),
      Option.bind_some]
    refine ⟨_, rfl, ?_, ?_, rfl⟩
    · rw [List.length_set, List.length_set, hbuf]
    · exact List.mem_set (by rw [List.length_set]; omega) nul

end Close

section Keys

variable {mode : KeypadMode} {keys : List Key} {text : List Char} {c : Key} {scale : Nat}

theorem fits_iff (hentered : entered (maxLength mode) keys [] = (text, some c))
    (hunit : unitScale c = some scale) (hne : text ≠ []) :
    Fits mode keys ↔ (wholeOf text).length < numInputLen ∧
      (10 ^ numInputLen ≤ decimal text * 10 ^ scale ∨ decimal text = 0 ∨
        (wholeOf text).length + scale ≤ numInputLen ∧
          decimal text * 10 ^ scale < limit (keypadsModeTbl mode).2) := by
  refine ⟨fun h => h text c scale hentered hunit hne, ?_⟩
  intro h text' c' scale' hentered' hunit' hne'
  rw [hentered] at hentered'
  cases hentered'
  rw [hunit] at hunit'
  cases hunit'
  exact h

theorem sound_iff (hentered : entered (maxLength mode) keys [] = (text, some c))
    (hunit : unitScale c = some scale) (hne : text ≠ []) {buf : List Char} {e : Decimal}
    (h : Holding buf e.text) {rounds : Nat} (hrounds : rounds ≤ 9) :
    Sound mode keys ⟨.done, rounds, buf⟩ ↔
      (decimal text * 10 ^ scale < 10 ^ numInputLen → e.value = decimal text * 10 ^ scale ∧
        Reads (keypadsModeTbl mode).2 e.text (decimal text * 10 ^ scale)) := by
  have htext := textOf_holding h
  have hvalue := e.decimal_text
  constructor
  · intro hsound
    have hall := hsound.value text c scale hentered hunit hne
    dsimp only at hall
    rw [htext, hvalue] at hall
    exact hall
  · intro hall
    refine ⟨h.length, h.ended, hrounds, ?_⟩
    intro text' c' scale' hentered' hunit' hne'
    rw [hentered] at hentered'
    cases hentered'
    rw [hunit] at hunit'
    cases hunit'
    dsimp only
    rw [htext, hvalue]
    exact hall

theorem plain_fits (hplain : ∀ text c scale, entered (maxLength mode) keys [] = (text, some c) →
    unitScale c = some scale → text = []) : Fits mode keys :=
  fun text c scale hentered hunit hne => absurd (hplain text c scale hentered hunit) hne

theorem plain_sound (hplain : ∀ text c scale, entered (maxLength mode) keys [] = (text, some c) →
    unitScale c = some scale → text = []) {r : Click} (hsize : r.buf.length = kpBufSize)
    (hended : nul ∈ r.buf) (hrounds : r.rounds ≤ 9) : Sound mode keys r :=
  ⟨hsize, hended, hrounds,
    fun text c scale hentered hunit hne => absurd (hplain text c scale hentered hunit) hne⟩

theorem unit_run_iff (hkeys : ∀ c ∈ keys, c ∈ (keypadsModeTbl mode).1.keys)
    (hentered : entered (maxLength mode) keys [] = (text, some c))
    (hunit : unitScale c = some scale) (hne : text ≠ []) {buf : List Char} (h : Holding buf text)
    (hlength : text.length ≤ numInputLen) :
    (∃ r, close c text.length buf = some r ∧ Sound mode keys r) ↔ Fits mode keys := by
  have hmem : c ∈ keys := entered_mem (congrArg Prod.snd hentered)
  obtain ⟨hminus, -, hg⟩ := unit_mode mode (hkeys c hmem) hunit
  have hunsigned : Key.minus ∉ keys := fun hm => hminus (hkeys _ hm)
  obtain ⟨d, hd⟩ := @entered_decimal (maxLength mode) keys hunsigned ⟨[], none⟩
  obtain rfl : text = d.text := (congrArg Prod.fst hentered).symm.trans hd
  have hwhole : (wholeOf d.text).length = d.whole.length := by
    rw [Decimal.wholeOf_text, Decimal.length_digitsText]
  have hle : d.whole.length ≤ d.text.length := by
    rw [← hwhole]
    exact (List.takeWhile_sublist _).length_le
  rw [fits_iff hentered hunit hne, hwhole, d.decimal_text]
  obtain hroom | hfull := Nat.lt_or_eq_of_le (hle.trans hlength)
  · obtain ⟨buf', hclose, h'⟩ := close_unit h hunit hroom d.text.length
    have hrounds : steps scale d ≤ 9 := (Nat.min_le_left _ _).trans (unitScale_bounds hunit).2
    have hsound := sound_iff hentered hunit hne h' hrounds
    rw [d.decimal_text, value_iff hg hroom] at hsound
    rw [hclose, and_iff_right hroom, ← hsound]
    constructor
    · rintro ⟨r, hr, hsound⟩
      cases hr
      exact hsound
    · intro hsound
      exact ⟨_, rfl, hsound⟩
  · rw [close_full h hunit hfull]
    refine iff_of_false ?_ fun hfits => absurd hfits.1 (by omega)
    rintro ⟨r, hr, -⟩
    cases hr

theorem run_iff (hkeys : ∀ c ∈ keys, c ∈ (keypadsModeTbl mode).1.keys) {stale : List Char}
    (hstale : stale.length = numInputLen + 1) :
    (∃ r, keypadRun (maxLength mode) keys (nul :: stale) = some r ∧ Sound mode keys r) ↔
      Fits mode keys := by
  have hmax : maxLength mode ≤ numInputLen := by
    rw [maxLength]
    split <;> decide
  have hstart : Holding (nul :: stale) [] := by
    refine ⟨?_, fun x hx => absurd hx List.not_mem_nil, stale, rfl⟩
    rw [List.length_cons, hstale]
    rfl
  obtain ⟨buf, h, hlength, hrun⟩ := keypadRun_entered hmax hstart (Nat.zero_le _) keys
  rcases hentered : entered (maxLength mode) keys [] with ⟨text, key⟩
  rw [hentered] at h hlength hrun
  have hplain : (∀ c scale, key = some c → unitScale c = some scale → text = []) →
      ∀ text c scale, entered (maxLength mode) keys [] = (text, some c) →
        unitScale c = some scale → text = [] := by
    intro hkey text' c scale hentered' hunit
    rw [hentered] at hentered'
    cases hentered'
    exact hkey c scale rfl hunit
  cases key with
  | none =>
    have hkey := hplain fun c scale hc => by cases hc
    exact iff_of_true ⟨_, hrun, plain_sound hkey h.length h.ended (Nat.zero_le _)⟩
      (plain_fits hkey)
  | some c =>
    obtain ⟨hends, hrun⟩ := hrun
    rw [keypadClick_ends h hends] at hrun
    by_cases hne : text = []
    · have hkey := hplain fun _ _ _ _ => hne
      rw [if_pos hne] at hrun
      exact iff_of_true ⟨_, hrun, plain_sound hkey h.length h.ended (Nat.zero_le _)⟩
        (plain_fits hkey)
    · rw [if_neg hne] at hrun
      rw [hrun]
      cases hunit : unitScale c with
      | none =>
        have hkey := hplain fun c' scale hc hunit' => by
          cases hc
          rw [hunit] at hunit'
          cases hunit'
        obtain ⟨r, hclose, hsize, hended, hrounds⟩ := close_other h (hlength.trans hmax) hunit
        exact iff_of_true ⟨r, hclose, plain_sound hkey hsize hended (by omega)⟩ (plain_fits hkey)
      | some scale => exact unit_run_iff hkeys hentered hunit hne h (hlength.trans hmax)

end Keys

/-- The keypad is sound exactly when a number that a unit key closes has its places in the buffer,
and the value that it becomes is one that the callback can read. -/
theorem keypad_meets_iff (mode : KeypadMode) (keys : List Key)
    (hkeys : ∀ c ∈ keys, c ∈ (keypadsModeTbl mode).1.keys) : Meets mode keys ↔ Fits mode keys := by
  have hstale : (List.replicate (numInputLen + 1) nul).length = numInputLen + 1 :=
    List.length_replicate
  constructor
  · intro hmeets
    exact (run_iff hkeys hstale).mp (hmeets _ hstale)
  · intro hfits stale hstale
    exact (run_iff hkeys hstale).mpr hfits

theorem keypad_meets_iff_start : Meets .start [.digit 1, .period, .digit 5, .k] := by
  refine (keypad_meets_iff .start _ (by decide)).mpr ?_
  have hentered : entered (maxLength .start) [.digit 1, .period, .digit 5, .k] [] =
      ("1.5".toList, some .k) := by decide
  refine (fits_iff hentered rfl (by decide)).mpr ⟨by decide, Or.inr (Or.inr ⟨by decide, ?_⟩)⟩
  have hvalue : decimal "1.5".toList = 3 / 2 := by decide +kernel
  rw [hvalue]
  norm_num [limit, keypadsModeTbl]

/-- Twelve digits, and a unit key. -/
theorem not_keypad_meets : ¬ Meets .start (List.replicate numInputLen (.digit 1) ++ [.k]) := by
  intro hmeets
  obtain ⟨r, hrun, -⟩ := hmeets (List.replicate (numInputLen + 1) nul) rfl
  have hnone : keypadRun (maxLength .start) (List.replicate numInputLen (.digit 1) ++ [.k])
      (nul :: List.replicate (numInputLen + 1) nul) = none := by decide +kernel
  rw [hnone] at hrun
  cases hrun

end NanoVNA.KeypadUnits
