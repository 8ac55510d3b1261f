import NanoVNA.ShellArguments

namespace NanoVNA.FloatText

open NanoVNA.ShellArguments

/-- The single precision operations of `my_atof` and of a delay; the comparison of floats is
symmetric and transitive, although not reflexive. -/
structure FloatArith (F : Type) where
  ofInt : Int → F
  add : F → F → F
  mul : F → F → F
  neg : F → F
  tenth : F
  ten : F
  eq : F → F → Bool
  eq_symm : ∀ {x y}, eq x y → eq y x
  eq_trans : ∀ {x y z}, eq x y → eq y z → eq x z

section Exact

variable {F : Type} [DecidableEq F] {x y z : F}

theorem decide_eq_symm (h : decide (x = y) = true) : decide (y = x) = true :=
  decide_eq_true (of_decide_eq_true h).symm

theorem decide_eq_trans (h : decide (x = y) = true) (h' : decide (y = z) = true) :
    decide (x = z) = true :=
  decide_eq_true ((of_decide_eq_true h).trans (of_decide_eq_true h'))

end Exact

section Atof

variable {F : Type} (a : FloatArith F)

def isDigit (c : Char) : Bool := '0' ≤ c ∧ c ≤ '9'

/-- The digits after the point, each with a tenth of the weight of the one before. -/
def atofFraction (d x : F) : Arg → F × Arg
  | [] => (x, [])
  | c :: p =>
    if isDigit c then
      let d := a.mul d a.tenth
      atofFraction d (a.add x (a.mul d (a.ofInt (digit (c :: p))))) p
    else (x, c :: p)

def atofExponent : Char → Arg → Int
  | 'e', p => myAtoi p
  | 'E', p => myAtoi p
  | 'G', _ => 9
  | 'M', _ => 6
  | 'k', _ => 3
  | 'm', _ => -3
  | 'u', _ => -6
  | 'n', _ => -9
  | 'p', _ => -12
  | _, _ => 0

def scaleBy (exp : Int) (x : F) : F :=
  if 0 < exp then Nat.repeat (fun x => a.mul x a.ten) exp.toNat x
  else Nat.repeat (fun x => a.mul x a.tenth) (-exp).toNat x

def skipSign : Arg → Arg
  | '-' :: p => p
  | '+' :: p => p
  | p => p

def myAtof (text : Arg) : F :=
  let p := skipSign text
  let x := a.ofInt (myAtoi p)
  let (x, p) :=
    match p.dropWhile isDigit with
    | '.' :: p => atofFraction a (a.ofInt 1) x p
    | ',' :: p => atofFraction a (a.ofInt 1) x p
    | p => (x, p)
  let x :=
    match p with
    | [] => x
    | c :: p => scaleBy a (atofExponent c p) x
  if text.head? = some '-' then a.neg x else x

end Atof

end NanoVNA.FloatText
