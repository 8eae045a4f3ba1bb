import FlowAtlas.Decimal.Binary64

namespace FlowAtlas

namespace Decimal

def digitChars (n : Nat) : List Char := Nat.toDigits 10 n

def width (n : Nat) : Nat := (digitChars n).length

def magnitude (mantissa : Nat) (exponent : Int) : Int :=
  if 0 ≤ exponent then (width (mantissa * Nat.pow 2 exponent.toNat) : Int)
  else (width (mantissa * Nat.pow 5 (-exponent).toNat) : Int) + exponent

def neighbours (mantissa : Nat) (exponent place : Int) : List Nat :=
  let num := mantissa * Nat.pow 2 exponent.toNat * Nat.pow 10 (-place).toNat
  let den := Nat.pow 2 (-exponent).toNat * Nat.pow 10 place.toNat
  let below := num / den
  if Binary64.roundHalfEven num den = below then [below, below + 1] else [below + 1, below]

/-- Digits and their place, with as few digits as read back to the number. Seventeen always do. -/
def shortest (mantissa : Nat) (exponent : Int) : Nat × Int :=
  let top := magnitude mantissa exponent
  let candidates := (List.range 17).flatMap fun (count : Nat) =>
    let place := top - (count + 1)
    (neighbours mantissa exponent place).map fun digits => (digits, place)
  (candidates.find? fun (digits, place) =>
    Binary64.ofDecimal false digits place == .finite false mantissa exponent).getD (0, 0)

def exponentText (exponent : Int) : List Char :=
  let digits := digitChars exponent.natAbs
  (if exponent < 0 then '-' else '+') :: List.replicate (2 - digits.length) '0' ++ digits

/-- Digits are written positionally where the first stands at or above the fourth place behind the point and
below the seventeenth before it, otherwise with an exponent. -/
def layOut (digits : List Char) (place : Int) : List Char :=
  let lead := place + digits.length - 1
  if -4 ≤ lead && lead < 16 then
    if 0 ≤ place then digits ++ List.replicate place.toNat '0' ++ ['.', '0']
    else if 0 ≤ lead then
      digits.take (lead.toNat + 1) ++ '.' :: digits.drop (lead.toNat + 1)
    else '0' :: '.' :: List.replicate (-lead - 1).toNat '0' ++ digits
  else
    match digits with
    | [] => []
    | [first] => first :: 'e' :: exponentText lead
    | first :: rest => first :: '.' :: rest ++ 'e' :: exponentText lead

def dropZeros (digits : List Char) (place : Int) : List Char × Int :=
  let kept := (digits.reverse.dropWhile (· == '0')).reverse
  (kept, place + (digits.length - kept.length : Nat))

end Decimal

def Binary64.show : Binary64 → List Char
  | .nan => ['n', 'a', 'n']
  | .infinite negative => (if negative then ['-'] else []) ++ ['i', 'n', 'f']
  | .finite negative mantissa exponent =>
    (if negative then ['-'] else []) ++
      if mantissa = 0 then ['0', '.', '0']
      else
        let (digits, place) := Decimal.shortest mantissa exponent
        let (digits, place) := Decimal.dropZeros (Decimal.digitChars digits) place
        Decimal.layOut digits place

end FlowAtlas
