import NanoVNA.PrintFloats

namespace NanoVNA.PrintFormat

open NanoVNA.PrintFloats

/-! ### Formats -/

/-- The numbers of a format have the type int. -/
def wrap32 (n : Int) : Int := n.bmod (2 ^ 32)

structure Flags where
  leftAlign : Bool := false
  positive : Bool := false
  padZero : Bool := false
  complex : Bool := false
  plusSpace : Bool := false
  shortFloat : Bool := false

/-- What may stand in the list of parameters. A short float is the word of a float. -/
inductive Arg (fl : FloatFormat)
  | word (n : UInt32)
  | text (s : Option (List Char))
  | double (x : Finite fl)
  | short (x : Finite fl)

inductive Conversion (fl : FloatFormat)
  | char (n : UInt32)
  | string (s : Option (List Char))
  | signed (n : UInt32)
  | freq (n : UInt32)
  | float (letter : Bool) (x : Finite fl)
  | hex (n : UInt32)
  | unsigned (n : UInt32)
  | octal (n : UInt32)
  | other (c : Char)

/-- `%[flags][width|*][.precision|*]` and a type; no precision is the default. -/
structure Directive (fl : FloatFormat) where
  flags : Flags
  width : Int
  precision : Option Int
  conversion : Conversion fl

section Parse

variable {fl : FloatFormat}

def parseFlags : Flags → List Char → Flags × List Char
  | state, [] => (state, [])
  | state, c :: fmt =>
    if c = '-' then parseFlags { state with leftAlign := true } fmt
    else if c = '+' then parseFlags { state with positive := true } fmt
    else if c = '0' then parseFlags { state with padZero := true } fmt
    else if c = 'j' then parseFlags { state with complex := true } fmt
    else if c = ' ' then parseFlags { state with plusSpace := true } fmt
    else if c = 'b' then parseFlags { state with shortFloat := true } fmt
    else (state, c :: fmt)

/-- A width or a precision, and the character behind it. A parameter goes through a byte; the
terminator of the format is not to be passed. -/
def parseNumber : Int → List Char → List (Arg fl) →
    Option (Int × Char × List Char × List (Arg fl))
  | _, [], _ => none
  | number, c :: fmt, args =>
    if '0' ≤ c ∧ c ≤ '9' then
      parseNumber (wrap32 (number * 10 + (c.toNat - '0'.toNat : Nat))) fmt args
    else if c = '*' then
      match args with
      | .word n :: args => parseNumber (wrap32 (number * 10 + (n.toNat % 256 : Nat))) fmt args
      | _ => none
    else some (number, c, fmt, args)

def parseSizes (fmt : List Char) (args : List (Arg fl)) :
    Option (Int × Option Int × Char × List Char × List (Arg fl)) := do
  let (width, c, fmt, args) ← parseNumber 0 fmt args
  if c = '.' then do
    let (precision, c, fmt, args) ← parseNumber 0 fmt args
    some (width, some precision, c, fmt, args)
  else some (width, none, c, fmt, args)

def takeWord : List (Arg fl) → Option (UInt32 × List (Arg fl))
  | .word n :: args => some (n, args)
  | _ => none

def takeText : List (Arg fl) → Option (Option (List Char) × List (Arg fl))
  | .text s :: args => some (s, args)
  | _ => none

def takeFloat (shortFloat : Bool) : List (Arg fl) → Option (Finite fl × List (Arg fl))
  | .double x :: args => if shortFloat then none else some (x, args)
  | .short x :: args => if shortFloat then some (x, args) else none
  | _ => none

/-- The parameter that a type takes; a type that is not known takes none. -/
def parseType (flags : Flags) (c : Char) (args : List (Arg fl)) :
    Option (Conversion fl × List (Arg fl)) :=
  if c = 'c' then (takeWord args).map fun (n, args) => (.char n, args)
  else if c = 's' then (takeText args).map fun (s, args) => (.string s, args)
  else if c = 'D' ∨ c = 'd' ∨ c = 'I' ∨ c = 'i' then
    (takeWord args).map fun (n, args) => (.signed n, args)
  else if c = 'q' then (takeWord args).map fun (n, args) => (.freq n, args)
  else if c = 'F' ∨ c = 'f' then
    (takeFloat flags.shortFloat args).map fun (x, args) => (.float (c = 'F') x, args)
  else if c = 'X' ∨ c = 'x' then (takeWord args).map fun (n, args) => (.hex n, args)
  else if c = 'U' ∨ c = 'u' then (takeWord args).map fun (n, args) => (.unsigned n, args)
  else if c = 'O' ∨ c = 'o' then (takeWord args).map fun (n, args) => (.octal n, args)
  else some (.other c, args)

/-- What stands behind a percent sign, with the rest of the format and of the parameters. -/
def parseDirective (fmt : List Char) (args : List (Arg fl)) :
    Option (Directive fl × List Char × List (Arg fl)) := do
  let (flags, fmt) := parseFlags {} fmt
  let (width, precision, c, fmt, args) ← parseSizes fmt args
  let (conversion, args) ← parseType flags c args
  some (⟨flags, width, precision, conversion⟩, fmt, args)

theorem length_parseFlags (state : Flags) (fmt : List Char) :
    (parseFlags state fmt).2.length ≤ fmt.length := by
  induction fmt generalizing state with
  | nil => exact Nat.le_refl 0
  | cons c fmt ih =>
    have hnext (state : Flags) : (parseFlags state fmt).2.length ≤ (c :: fmt).length :=
      (ih state).trans (Nat.le_succ _)
    rw [parseFlags]
    split
    · exact hnext _
    · split
      · exact hnext _
      · split
        · exact hnext _
        · split
          · exact hnext _
          · split
            · exact hnext _
            · split
              · exact hnext _
              · exact Nat.le_refl _

theorem length_parseNumber {number n : Int} {fmt rest : List Char} {args args' : List (Arg fl)}
    {c : Char} (h : parseNumber number fmt args = some (n, c, rest, args')) :
    rest.length < fmt.length := by
  induction fmt generalizing number args with
  | nil => cases h
  | cons c fmt ih =>
    rw [parseNumber.eq_def] at h
    dsimp only at h
    split at h
    · exact (ih h).trans (Nat.lt_succ_self _)
    · split at h
      · split at h
        · exact (ih h).trans (Nat.lt_succ_self _)
        · cases h
      · cases h
        exact Nat.lt_succ_self _

theorem length_parseSizes {width : Int} {precision : Option Int} {fmt rest : List Char}
    {args args' : List (Arg fl)} {c : Char}
    (h : parseSizes fmt args = some (width, precision, c, rest, args')) :
    rest.length < fmt.length := by
  rw [parseSizes] at h
  obtain ⟨⟨n, c', behind, others⟩, hwidth, h⟩ := Option.bind_eq_some_iff.mp h
  have hlt := length_parseNumber hwidth
  dsimp only at h
  split at h
  · obtain ⟨⟨n', c'', behind', others'⟩, hprecision, h⟩ := Option.bind_eq_some_iff.mp h
    have hlt' := length_parseNumber hprecision
    cases h
    exact hlt'.trans hlt
  · cases h
    exact hlt

theorem length_parseDirective {fmt rest : List Char} {args args' : List (Arg fl)}
    {d : Directive fl} (h : parseDirective fmt args = some (d, rest, args')) :
    rest.length < fmt.length := by
  rw [parseDirective] at h
  dsimp only at h
  obtain ⟨⟨width, precision, c, behind, others⟩, hsizes, h⟩ := Option.bind_eq_some_iff.mp h
  obtain ⟨⟨conversion, others'⟩, -, h⟩ := Option.bind_eq_some_iff.mp h
  cases h
  exact (length_parseSizes hsizes).trans_le (length_parseFlags {} fmt)

/-- The conversions of a format, as they are read; plain characters are left out. -/
def directives : List Char → List (Arg fl) → Option (List (Directive fl))
  | [], _ => some []
  | c :: fmt, args =>
    if c ≠ '%' then directives fmt args
    else
      match h : parseDirective fmt args with
      | none => none
      | some (d, rest, args) =>
        have := length_parseDirective h
        (directives rest args).map (d :: ·)
termination_by fmt => fmt.length

theorem directives_plain {c : Char} (hc : c ≠ '%') (fmt : List Char) (args : List (Arg fl)) :
    directives (c :: fmt) args = directives fmt args := by
  rw [directives, if_pos hc]

theorem directives_none {fmt : List Char} {args : List (Arg fl)}
    (h : parseDirective fmt args = none) : directives ('%' :: fmt) args = none := by
  rw [directives, if_neg (not_not_intro rfl)]
  split
  · rfl
  · simp_all

theorem directives_some {fmt rest : List Char} {args args' : List (Arg fl)} {d : Directive fl}
    (h : parseDirective fmt args = some (d, rest, args')) :
    directives ('%' :: fmt) args = (directives rest args').map (d :: ·) := by
  rw [directives, if_neg (not_not_intro rfl)]
  split
  · simp_all
  · simp_all

end Parse

end NanoVNA.PrintFormat
