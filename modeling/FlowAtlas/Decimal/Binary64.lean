/-! Binary floating point numbers of 64 bits, computed exactly and rounded once. -/

namespace FlowAtlas

/-- A finite number is `mantissa * 2 ^ exponent`, in the form that `Binary64.round` gives. -/
inductive Binary64 where
  | finite (negative : Bool) (mantissa : Nat) (exponent : Int)
  | infinite (negative : Bool)
  | nan
  deriving DecidableEq, Repr

namespace Binary64

def roundHalfEven (num den : Nat) : Nat :=
  let quotient := num / den
  let twice := 2 * (num % den)
  if twice > den || (twice == den && quotient % 2 == 1) then quotient + 1 else quotient

def scaled (num den : Nat) (exponent : Int) : Nat × Nat :=
  (num * Nat.pow 2 (-exponent).toNat, den * Nat.pow 2 exponent.toNat)

def mantissaBound : Nat := 9007199254740992

/-- The number nearest to `num / den`, for a denominator above zero. The mantissa has 53 bits unless the
exponent is the least one, -1074; numbers past the largest exponent, 971, become infinite. -/
def round (negative : Bool) (num den : Nat) : Binary64 :=
  if num = 0 then finite negative 0 (-1074)
  else
    let guess : Int := max ((num.log2 : Int) - den.log2 - 53) (-1074)
    let (n, d) := scaled num den guess
    let exponent := if mantissaBound ≤ n / d then guess + 1 else guess
    let (n, d) := scaled num den exponent
    let mantissa := roundHalfEven n d
    let (mantissa, exponent) := if mantissa = mantissaBound then (mantissaBound / 2, exponent + 1)
      else (mantissa, exponent)
    if exponent > 971 then infinite negative else finite negative mantissa exponent

/-- The number nearest to `digits * 10 ^ exponent`. The exponent is not used as a power where the result is
sure to be infinite or zero. -/
def ofDecimal (negative : Bool) (digits : Nat) (exponent : Int) : Binary64 :=
  let size : Int := digits.log2 + 1
  if digits = 0 then finite negative 0 (-1074)
  else if exponent > 400 then infinite negative
  else if exponent < -(400 + size) then finite negative 0 (-1074)
  else round negative (digits * Nat.pow 10 exponent.toNat) (Nat.pow 10 (-exponent).toNat)

def ofInt (i : Int) : Binary64 := round (i < 0) i.natAbs 1

def ofInt? (i : Int) : Option Binary64 :=
  match ofInt i with
  | infinite _ => none
  | x => some x

def fraction? : Binary64 → Option (Bool × Nat × Nat)
  | finite negative mantissa exponent =>
    some (negative, mantissa * Nat.pow 2 exponent.toNat, Nat.pow 2 (-exponent).toNat)
  | _ => none

def divNat (x : Binary64) (divisor : Nat) : Binary64 :=
  match x.fraction? with
  | some (negative, num, den) => round negative num (den * divisor)
  | none => x

def toInt? (x : Binary64) : Option Int :=
  match x.fraction? with
  | some (negative, num, den) =>
    if num % den = 0 then some (if negative then -(num / den : Nat) else (num / den : Nat)) else none
  | none => none

def isFinite (x : Binary64) : Bool := x.fraction?.isSome

end Binary64

end FlowAtlas
