import NanoVNA.PrintFormat

namespace NanoVNA.PrintRuns

open NanoVNA.FrequencyText NanoVNA.PrintBuffer NanoVNA.PrintFloats NanoVNA.PrintFormat
open NanoVNA.DeviceState (Board)
open NanoVNA.ShellPrintf (maxFiller floatPrecision)

/-! ### The conversions, and the loop over a format -/

def floatPrefixPrecision : Nat := 3

/-- What stands between `s` and `p`, the distance of the two, and what is left of the state. -/
structure Printed where
  text : List Char
  length : Int
  padZero : Bool
  negative : Bool

def signChar (flags : Flags) (negative : Bool) : Option Char :=
  if negative then some '-'
  else if flags.positive then some '+'
  else if flags.plusSpace then some ' '
  else none

def putSign (flags : Flags) (negative : Bool) (buf : Cells) : Option (Nat × Cells) := do
  let (p, buf) ←
    (match signChar flags negative with
    | none => some (0, buf)
    | some c => (store buf 0 c).map fun buf => (1, buf))
  if flags.complex then (store buf p 'j').map fun buf => (p + 1, buf) else some (p, buf)

def inBuffer (padZero negative : Bool) (p : Int) (buf : Cells) : Option (Printed × Cells) := do
  let text ← textOf buf 0 p.toNat
  some (⟨text, p, padZero, negative⟩, buf)

/-- `for (p = s; *p && (--precision >= 0); p++)` -/
def takeChars : Int → List Char → List Char
  | _, [] => []
  | precision, c :: s =>
    let precision := wrap32 (precision - 1)
    if 0 ≤ precision then c :: takeChars precision s else []

def putChar (padZero : Bool) (c : Char) (buf : Cells) : Option (Printed × Cells) := do
  let buf ← store buf 0 c
  inBuffer padZero false 1 buf

def putUnsigned (flags : Flags) (radix : Nat) (n : UInt32) (buf : Cells) :
    Option (Printed × Cells) := do
  let (p, buf) ← longToStringAt 0 n.toNat radix 0 buf
  inBuffer flags.padZero false p buf

section Run

variable {fl : FloatFormat} (board : Board) (comma : Bool) (stack : Stack)

def floatAt (letter : Bool) (p : Nat) (num : ℚ) (precision : Int) (buf : Cells) :
    Option (Int × Cells) :=
  if letter then ftoaSAt fl comma stack p num precision buf
  else (ftoaAt fl comma p num precision buf).map fun (p, buf) => ((p : Int), buf)

/-- The zeros at the end of a float go where they would stand in front of it. -/
def convert (d : Directive fl) (buf : Cells) : Option (Printed × Cells) :=
  match d.conversion with
  | .char n => putChar false (Char.ofNat (n.toNat % 256)) buf
  | .string s =>
    let text := takeChars (d.precision.getD 32767) (s.getD "(null)".toList)
    some (⟨text, wrap32 text.length, false, false⟩, buf)
  | .signed n => do
    let negative : Bool := n.toInt32 < 0
    let (p, buf) ← putSign d.flags negative buf
    let (p, buf) ← longToStringAt p (if negative then -n else n).toNat 10 0 buf
    inBuffer d.flags.padZero negative p buf
  | .freq n => do
    let (p, buf) ← ulongFreq board n.toNat (d.precision.getD 0) buf
    inBuffer d.flags.padZero false p buf
  | .float letter x => do
    let negative : Bool := x.value < 0
    let (p, buf) ← putSign d.flags negative buf
    let precision := d.precision.getD (if letter then floatPrefixPrecision else floatPrecision)
    let (p, buf) ← @floatAt fl comma stack letter p |x.value| precision buf
    let p ← (if d.flags.padZero then dropEnd stack buf '.' p else some p)
    inBuffer false negative p buf
  | .hex n => putUnsigned d.flags 16 n buf
  | .unsigned n => putUnsigned d.flags 10 n buf
  | .octal n => putUnsigned d.flags 8 n buf
  | .other c => putChar d.flags.padZero c buf

def layout (d : Directive fl) (out : Printed) : List Char :=
  let width := wrap32 (d.width - out.length)
  let fill := List.replicate width.toNat (if out.padZero then '0' else ' ')
  if d.flags.leftAlign then out.text ++ fill
  else if (out.negative || d.flags.positive || d.flags.plusSpace) && out.padZero then
    out.text.take 1 ++ fill ++ out.text.drop 1
  else fill ++ out.text

section Stream

variable {σ : Type} (put : σ → Char → σ)

/-- `streamPut(chp, c); n++` -/
def streamPut (out : σ × Int) (c : Char) : σ × Int := (put out.1 c, wrap32 (out.2 + 1))

def chvprintf : List Char → List (Arg fl) → Cells → σ × Int → Option (σ × Int)
  | [], _, _, out => some out
  | c :: fmt, args, buf, out =>
    if c ≠ '%' then chvprintf fmt args buf (streamPut put out c)
    else
      match h : parseDirective fmt args with
      | none => none
      | some (d, rest, args) =>
        have := length_parseDirective h
        match convert board comma stack d buf with
        | none => none
        | some (text, buf) =>
          chvprintf rest args buf ((layout d text).foldl (streamPut put) out)
termination_by fmt => fmt.length

end Stream

end Run

/-! ### Which conversions stay in the buffer -/

def signLength (flags : Flags) (negative : Bool) : Nat :=
  (if (signChar flags negative).isSome then 1 else 0) + if flags.complex then 1 else 0

/-- A float with a sign, the letter of an imaginary part and ten digits leaves no room for
decimals. -/
structure FloatFits {fl : FloatFormat} (flags : Flags) (precision : Int) (x : Finite fl) :
    Prop where
  nonneg : 0 ≤ precision
  room : precision ≠ 0 → flags.complex = true →
    (signChar flags (x.value < 0)).isSome = true → |x.value| < 10 ^ 9

def Fits {fl : FloatFormat} (d : Directive fl) : Prop :=
  match d.conversion with
  | .float false x => FloatFits d.flags (d.precision.getD floatPrecision) x
  | _ => True

section Conversions

variable {fl : FloatFormat} {buf : Cells}

theorem textOf_full (h : Full buf) (i n : Nat) : ∃ text, textOf buf i n = some text := by
  induction n generalizing i with
  | zero => exact ⟨[], rfl⟩
  | succ n ih =>
    obtain ⟨c, hc⟩ := Option.isSome_iff_exists.mp (h i)
    obtain ⟨text, htext⟩ := ih (i + 1)
    rw [textOf, hc, htext]
    exact ⟨c :: text, rfl⟩

theorem inBuffer_some (h : Full buf) (padZero negative : Bool) (p : Int) :
    ∃ out, inBuffer padZero negative p buf = some (out, buf) := by
  obtain ⟨text, htext⟩ := textOf_full h 0 p.toNat
  rw [inBuffer, htext]
  exact ⟨_, rfl⟩

theorem putChar_some (h : Full buf) (padZero : Bool) (c : Char) :
    ∃ out buf', putChar padZero c buf = some (out, buf') ∧ Full buf' := by
  obtain ⟨buf', hstore, hkeeps⟩ := keeps_store h (Nat.le_refl 0) (by decide) c
  obtain ⟨out, hout⟩ := inBuffer_some hkeeps.full padZero false 1
  rw [putChar, hstore]
  exact ⟨out, buf', hout, hkeeps.full⟩

theorem putUnsigned_some (h : Full buf) (flags : Flags) {radix : Nat} (hradix : 8 ≤ radix)
    (n : UInt32) : ∃ out buf', putUnsigned flags radix n buf = some (out, buf') ∧ Full buf' := by
  obtain ⟨buf', hlong, hkeeps⟩ := @longToStringAt_spec buf 0 n.toNat radix 0 h hradix n.toNat_lt
    (by decide) (by decide)
  obtain ⟨out, hout⟩ := inBuffer_some hkeeps.full flags.padZero false _
  rw [putUnsigned, hlong]
  exact ⟨out, buf', hout, hkeeps.full⟩

theorem putSign_some (h : Full buf) (flags : Flags) (negative : Bool) :
    ∃ buf', putSign flags negative buf = some (signLength flags negative, buf') ∧ Full buf' := by
  have hsign : ∃ buf', (match signChar flags negative with
      | none => some (0, buf)
      | some c => (store buf 0 c).map fun buf => (1, buf)) =
      some (if (signChar flags negative).isSome then 1 else 0, buf') ∧ Full buf' := by
    cases signChar flags negative with
    | none => exact ⟨buf, rfl, h⟩
    | some c =>
      obtain ⟨buf', hstore, hkeeps⟩ := keeps_store h (Nat.le_refl 0) (by decide) c
      refine ⟨buf', ?_, hkeeps.full⟩
      dsimp only
      rw [hstore]
      rfl
  obtain ⟨sign, hsign, hfull⟩ := hsign
  obtain ⟨p, hp⟩ : ∃ p, p = if (signChar flags negative).isSome then 1 else 0 := ⟨_, rfl⟩
  have hle : p ≤ 1 := by
    rw [hp]
    split <;> omega
  rw [← hp] at hsign
  rw [putSign, hsign, Option.bind_eq_bind, Option.bind_some, signLength, ← hp]
  dsimp only
  split
  · obtain ⟨buf', hstore, hkeeps⟩ := keeps_store hfull (Nat.le_refl p)
      (show p < 23 by omega) 'j'
    refine ⟨buf', ?_, hkeeps.full⟩
    rw [hstore]
    rfl
  · exact ⟨sign, rfl, hfull⟩

theorem signLength_le (flags : Flags) (negative : Bool) : signLength flags negative ≤ 2 := by
  unfold signLength
  split <;> split <;> omega

theorem signLength_eq_two {flags : Flags} {negative : Bool} :
    signLength flags negative = 2 ↔
      flags.complex = true ∧ (signChar flags negative).isSome = true := by
  unfold signLength
  split <;> split <;> simp_all

theorem ftoaAt_fits (comma : Bool) (h : Full buf) {flags : Flags} {precision : Int} {x : Finite fl}
    (hfits : FloatFits flags precision x) :
    ∃ p' buf', ftoaAt fl comma (signLength flags (x.value < 0)) |x.value| precision buf =
      some (p', buf') ∧ Full buf' := by
  have hsign := signLength_le flags (x.value < 0)
  have hten : wholeDigits fl |x.value| precision ≤ 10 :=
    decimals_le (by decide) (Nat.lt_trans (floatParts_lt x.integer _).1 (by decide))
  have hroom : precision = 0 ∨
      signLength flags (x.value < 0) + wholeDigits fl |x.value| precision ≤ 11 := by
    by_contra hnot
    rw [not_or] at hnot
    have htwo : signLength flags (x.value < 0) = 2 := by omega
    obtain ⟨hcomplex, hsome⟩ := signLength_eq_two.mp htwo
    have hlarge := (wholeDigits_ten_iff x.float precision).mp (by omega)
    exact (hfits.room hnot.1 hcomplex hsome).not_ge hlarge
  obtain ⟨p', buf', hftoa, hfull, -⟩ :=
    ftoaAt_some comma h x.integer hsign hfits.nonneg hroom
  exact ⟨p', buf', hftoa, hfull⟩

theorem ftoaAt_misfits (comma : Bool) (h : Full buf) {flags : Flags} {precision : Int}
    {x : Finite fl} (hfits : ¬ FloatFits flags precision x) :
    ftoaAt fl comma (signLength flags (x.value < 0)) |x.value| precision buf = none := by
  apply ftoaAt_none comma h x.integer (signLength_le _ _)
  by_contra hnot
  rw [not_or] at hnot
  refine hfits ⟨by omega, fun hne hcomplex hsome => ?_⟩
  have htwo := signLength_eq_two.mpr ⟨hcomplex, hsome⟩
  by_contra hsmall
  have hten := (wholeDigits_ten_iff x.float precision).mpr (not_lt.mp hsmall)
  exact hnot.2 ⟨hne, by omega⟩

variable (board : Board) (comma : Bool) (stack : Stack)

theorem convert_signed (h : Full buf) (flags : Flags) (width : Int) (precision : Option Int)
    (n : UInt32) :
    ∃ out buf', convert board comma stack (⟨flags, width, precision, .signed n⟩ : Directive fl) buf =
      some (out, buf') ∧ Full buf' := by
  obtain ⟨sign, hsign, hfull⟩ := putSign_some h flags (n.toInt32 < 0)
  have hle := signLength_le flags (n.toInt32 < 0)
  obtain ⟨buf', hlong, hkeeps⟩ := @longToStringAt_spec sign (signLength flags (n.toInt32 < 0))
    (if decide (n.toInt32 < 0) = true then -n else n).toNat 10 0 hfull (by decide)
    (UInt32.toNat_lt _) (by decide) (show _ + 11 ≤ 23 by omega)
  obtain ⟨out, hout⟩ := inBuffer_some hkeeps.full flags.padZero (n.toInt32 < 0) _
  refine ⟨out, buf', ?_, hkeeps.full⟩
  rw [convert]
  dsimp only
  rw [hsign, Option.bind_eq_bind, Option.bind_some]
  dsimp only
  rw [hlong]
  exact hout

theorem convert_freq (h : Full buf) (flags : Flags) (width : Int) (precision : Option Int)
    (n : UInt32) :
    ∃ out buf', convert board comma stack (⟨flags, width, precision, .freq n⟩ : Directive fl) buf =
      some (out, buf') ∧ Full buf' := by
  obtain ⟨p, buf', hfreq, hfull, -⟩ := ulongFreq_full board n.toNat_lt (precision.getD 0) h
  obtain ⟨out, hout⟩ := inBuffer_some hfull flags.padZero false p
  refine ⟨out, buf', ?_, hfull⟩
  rw [convert]
  dsimp only
  rw [hfreq]
  exact hout

theorem floatAt_some (h : Full buf) {letter : Bool} {x : Finite fl} {flags : Flags} {width : Int}
    {precision : Option Int} (hfits : Fits ⟨flags, width, precision, .float letter x⟩) :
    ∃ (p : Int) (buf' : Cells), @floatAt fl comma stack letter
      (signLength flags (x.value < 0)) |x.value|
      (precision.getD (if letter then floatPrefixPrecision else floatPrecision)) buf =
        some (p, buf') ∧ Full buf' ∧ 0 ≤ p := by
  cases letter with
  | true => exact ftoaSAt_some comma stack h x.integer (signLength_le _ _) _
  | false =>
    obtain ⟨p, buf', hftoa, hfull⟩ := ftoaAt_fits comma h hfits
    refine ⟨p, buf', ?_, hfull, Int.natCast_nonneg p⟩
    rw [floatAt, if_neg Bool.false_ne_true]
    exact congrArg (Option.map _) hftoa

theorem convert_float (h : Full buf) {letter : Bool} {x : Finite fl} {flags : Flags} {width : Int}
    {precision : Option Int} (hfits : Fits ⟨flags, width, precision, .float letter x⟩) :
    ∃ out buf', convert board comma stack ⟨flags, width, precision, .float letter x⟩ buf =
      some (out, buf') ∧ Full buf' := by
  obtain ⟨sign, hsign, hfull⟩ := putSign_some h flags (x.value < 0)
  obtain ⟨p, buf', hfloat, hfull', hp⟩ := floatAt_some comma stack hfull hfits
  have hdrop : ∃ p' : Int,
      (if flags.padZero then dropEnd stack buf' '.' p else some p) = some p' := by
    split
    · obtain ⟨p', hdrop, -⟩ := dropEnd_full stack hfull' '.' hp
      exact ⟨p', hdrop⟩
    · exact ⟨p, rfl⟩
  obtain ⟨p', hdrop⟩ := hdrop
  obtain ⟨out, hout⟩ := inBuffer_some hfull' false (x.value < 0) p'
  refine ⟨out, buf', ?_, hfull'⟩
  rw [convert]
  dsimp only
  rw [hsign, Option.bind_eq_bind, Option.bind_some]
  dsimp only
  rw [hfloat, Option.bind_eq_bind, Option.bind_some]
  dsimp only
  rw [hdrop]
  exact hout

theorem convert_some (h : Full buf) {d : Directive fl} (hfits : Fits d) :
    ∃ out buf', convert board comma stack d buf = some (out, buf') ∧ Full buf' := by
  obtain ⟨flags, width, precision, conversion⟩ := d
  cases conversion with
  | char n => exact putChar_some h _ _
  | string s => exact ⟨_, buf, rfl, h⟩
  | signed n => exact convert_signed board comma stack h flags width precision n
  | freq n => exact convert_freq board comma stack h flags width precision n
  | float letter x => exact convert_float board comma stack h hfits
  | hex n => exact putUnsigned_some h flags (by decide) n
  | unsigned n => exact putUnsigned_some h flags (by decide) n
  | octal n => exact putUnsigned_some h flags (by decide) n
  | other c => exact putChar_some h _ _

theorem convert_none (h : Full buf) {d : Directive fl} (hfits : ¬ Fits d) :
    convert board comma stack d buf = none := by
  obtain ⟨flags, width, precision, conversion⟩ := d
  cases conversion with
  | float letter x =>
    cases letter with
    | true => exact absurd trivial hfits
    | false =>
      obtain ⟨sign, hsign, hfull⟩ := putSign_some h flags (x.value < 0)
      have hftoa := ftoaAt_misfits comma hfull hfits
      rw [convert]
      dsimp only
      rw [hsign, Option.bind_eq_bind, Option.bind_some, floatAt, if_neg Bool.false_ne_true]
      dsimp only
      rw [if_neg Bool.false_ne_true]
      dsimp only at hftoa
      rw [hftoa]
      rfl
  | _ => exact absurd trivial hfits

end Conversions

section Runs

variable {fl : FloatFormat}

def Fine (fmt : List Char) (args : List (Arg fl)) : Prop :=
  ∃ ds, directives fmt args = some ds ∧ ∀ d ∈ ds, Fits d

theorem fine_plain {c : Char} (hc : c ≠ '%') (fmt : List Char) (args : List (Arg fl)) :
    Fine (c :: fmt) args ↔ Fine fmt args := by
  rw [Fine, Fine, directives_plain hc]

theorem fine_some {fmt rest : List Char} {args args' : List (Arg fl)} {d : Directive fl}
    (h : parseDirective fmt args = some (d, rest, args')) :
    Fine ('%' :: fmt) args ↔ Fits d ∧ Fine rest args' := by
  rw [Fine, Fine, directives_some h]
  constructor
  · rintro ⟨ds, hds, hfits⟩
    obtain ⟨ds, hrest, rfl⟩ := Option.map_eq_some_iff.mp hds
    rw [List.forall_mem_cons] at hfits
    exact ⟨hfits.1, ds, hrest, hfits.2⟩
  · rintro ⟨hd, ds, hrest, hfits⟩
    refine ⟨d :: ds, ?_, ?_⟩
    · rw [hrest, Option.map_some]
    · rw [List.forall_mem_cons]
      exact ⟨hd, hfits⟩

variable (board : Board) (comma : Bool) (stack : Stack)

section Stream

variable {σ : Type} (put : σ → Char → σ) (buf : Cells) (out : σ × Int)

theorem chvprintf_plain {c : Char} (hc : c ≠ '%') (fmt : List Char) (args : List (Arg fl)) :
    chvprintf board comma stack put (c :: fmt) args buf out =
      chvprintf board comma stack put fmt args buf (streamPut put out c) := by
  rw [chvprintf, if_pos hc]

theorem chvprintf_none {fmt : List Char} {args : List (Arg fl)}
    (h : parseDirective fmt args = none) :
    chvprintf board comma stack put ('%' :: fmt) args buf out = none := by
  rw [chvprintf, if_neg (not_not_intro rfl)]
  split
  · rfl
  · simp_all

theorem chvprintf_some {fmt rest : List Char} {args args' : List (Arg fl)} {d : Directive fl}
    (h : parseDirective fmt args = some (d, rest, args')) :
    chvprintf board comma stack put ('%' :: fmt) args buf out =
      (convert board comma stack d buf).bind fun x =>
        chvprintf board comma stack put rest args' x.2
          ((layout d x.1).foldl (streamPut put) out) := by
  rw [chvprintf, if_neg (not_not_intro rfl)]
  split
  next hnone =>
    rw [h] at hnone
    cases hnone
  next hsome =>
    rw [h] at hsome
    cases hsome
    cases convert board comma stack d buf <;> rfl

end Stream

theorem chvprintf_fine {fmt : List Char} {args : List (Arg fl)} (hfine : Fine fmt args)
    {buf : Cells} (h : Full buf) :
    ∃ text : List Char, ∀ {σ : Type} (put : σ → Char → σ) (out : σ × Int),
      chvprintf board comma stack put fmt args buf out =
        some (text.foldl (streamPut put) out) := by
  induction fmt, args using directives.induct generalizing buf with
  | case1 args =>
    refine ⟨[], fun put out => ?_⟩
    rw [chvprintf]
    rfl
  | case2 c fmt args hc ih =>
    obtain ⟨text, htext⟩ := ih ((fine_plain hc fmt args).mp hfine) h
    refine ⟨c :: text, fun put out => ?_⟩
    rw [chvprintf_plain board comma stack put buf out hc, htext put]
    rfl
  | case3 c fmt args hc hnone =>
    obtain rfl := not_not.mp hc
    obtain ⟨ds, hds, -⟩ := hfine
    rw [directives_none hnone] at hds
    cases hds
  | case4 c fmt args hc d rest args' hsome hlt ih =>
    obtain rfl := not_not.mp hc
    obtain ⟨hfits, hrest⟩ := (fine_some hsome).mp hfine
    obtain ⟨printed, buf', hconvert, hfull⟩ := convert_some board comma stack h hfits
    obtain ⟨text, htext⟩ := ih hrest hfull
    refine ⟨layout d printed ++ text, fun put out => ?_⟩
    rw [chvprintf_some board comma stack put buf out hsome, hconvert, Option.bind_some, htext put,
      List.foldl_append]

theorem chvprintf_misfit {fmt : List Char} {args : List (Arg fl)} (hfine : ¬ Fine fmt args)
    {buf : Cells} (h : Full buf) {σ : Type} (put : σ → Char → σ) (out : σ × Int) :
    chvprintf board comma stack put fmt args buf out = none := by
  induction fmt, args using directives.induct generalizing buf out with
  | case1 args =>
    refine absurd ⟨[], ?_, fun d hd => absurd hd List.not_mem_nil⟩ hfine
    rw [directives]
  | case2 c fmt args hc ih =>
    rw [chvprintf_plain board comma stack put buf out hc]
    exact ih (fun hfine' => hfine ((fine_plain hc fmt args).mpr hfine')) h _
  | case3 c fmt args hc hnone =>
    obtain rfl := not_not.mp hc
    exact chvprintf_none board comma stack put buf out hnone
  | case4 c fmt args hc d rest args' hsome hlt ih =>
    obtain rfl := not_not.mp hc
    rw [chvprintf_some board comma stack put buf out hsome]
    by_cases hfits : Fits d
    · obtain ⟨printed, buf', hconvert, hfull⟩ := convert_some board comma stack h hfits
      rw [hconvert, Option.bind_some]
      exact ih (fun hrest => hfine ((fine_some hsome).mpr ⟨hfits, hrest⟩)) hfull _
    · rw [convert_none board comma stack h hfits]
      rfl

end Runs

end NanoVNA.PrintRuns
