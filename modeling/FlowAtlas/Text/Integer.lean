import FlowAtlas.Text.Character
import FlowAtlas.Text.Pieces

/-! Integers as they are typed: digits of any script, with a sign, blanks around and underscores between. -/

namespace FlowAtlas.Text

def digitsValue? (value : Nat) : List Char → Option Nat
  | [] => some value
  | c :: rest => do digitsValue? (10 * value + (← decimalDigit? c)) rest

def digitLimit : Nat := 4300

def natural? (s : List Char) : Option Nat :=
  let groups := splitWhere (· == '_') s
  if groups.any (·.isEmpty) || digitLimit < groups.flatten.length then none
  else digitsValue? 0 groups.flatten

def integer? (s : List Char) : Option Int :=
  match unpadded s with
  | '-' :: digits => (natural? digits).map fun n => -(n : Int)
  | '+' :: digits => (natural? digits).map fun n => (n : Int)
  | digits => (natural? digits).map fun n => (n : Int)

end FlowAtlas.Text
