import NanoVNA.Word32

namespace NanoVNA.ShellArguments

open NanoVNA.Word32

abbrev Arg := List Char

/-- `*p - '0'` as an unsigned number; at the end of the text `*p` is zero. -/
def digit : Arg → Nat
  | [] => sub32 0 48
  | c :: _ => sub32 c.toNat 48

def atoiDigits (value : Nat) : Arg → Nat
  | [] => value
  | c :: p => if digit (c :: p) < 10 then atoiDigits (u32 (value * 10 + digit (c :: p))) p else value

def skipPlus : Arg → Arg
  | '+' :: p => p
  | p => p

def myAtoi : Arg → Int
  | '-' :: p => int32 (sub32 0 (atoiDigits 0 (skipPlus p)))
  | p => int32 (atoiDigits 0 (skipPlus p))

/-- Letters follow the digits, in either case. -/
def atouiDigit (p : Arg) : Nat :=
  let c := digit p
  if 17 ≤ c then u32 (sub32 (c &&& (2 ^ 32 - 1 - 32)) 17 + 10) else c

def atouiDigits (radix value : Nat) : Arg → Nat
  | [] => value
  | c :: p =>
    if radix ≤ atouiDigit (c :: p) then value
    else atouiDigits radix (u32 (value * radix + atouiDigit (c :: p))) p

def atouiRadix : Arg → Nat × Arg
  | '0' :: 'x' :: p => (16, p)
  | '0' :: 'o' :: p => (8, p)
  | '0' :: 'b' :: p => (2, p)
  | p => (10, p)

def myAtoui (p : Arg) : Nat :=
  let (radix, p) := atouiRadix (skipPlus p)
  atouiDigits radix 0 p

/-- The scan of a list of words separated by `|`; what is left of the word to compare with is
`none` once a character differs. -/
def strIndexFrom (v : Arg) : Option Arg → Nat → List Char → Option Nat
  | p, i, [] => if p = some [] then some i else none
  | p, i, c :: list =>
    if c = '|' then if p = some [] then some i else strIndexFrom v (some v) (i + 1) list
    else
      match p with
      | some (d :: p) => if c = d then strIndexFrom v (some p) i list else strIndexFrom v none i list
      | _ => strIndexFrom v none i list

/-- The place of a word in a list of words, `none` for the result `-1`. -/
def getStrIndex (v : Arg) (list : String) : Option Nat := strIndexFrom v (some v) 0 list.toList

example : myAtoui "0x1F4".toList = 500 := by decide

example : getStrIndex "off".toList "on|off" = some 1 := by decide

end NanoVNA.ShellArguments
