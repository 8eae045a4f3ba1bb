import FlowAtlas.Fields.Checked
import FlowAtlas.Text.Pieces

/-! Integers written as text: with blanks around, zeros in front, underscores between digits, and zeros behind a
point. -/

namespace FlowAtlas.Fields

open Checked

def decimalValue (digits : List Char) : Nat := digits.foldl (fun n c => 10 * n + (c.toNat - 48)) 0

namespace WrittenInteger

def sizeLimit : Nat := 4300

/-- Zeros in front of a number, which underscores may group in any way, are dropped; a minus may follow them. The
last character stays where nothing else does, and the one in front of a point. -/
def withoutLeadingZeros? (s : List Char) : Option (List Char) :=
  match s with
  | '0' :: rest =>
    match rest.dropWhile fun c => c == '0' || c == '_' with
    | [] => s.getLast?.map fun c => [c]
    | '.' :: fraction => some (s.drop (s.length - fraction.length - 2))
    | c :: tail => if c.isDigit || c == '-' then some (c :: tail) else none
  | c :: _ => if c.isDigit || c == '-' then some s else none
  | [] => none

def withoutZeroFraction (s : List Char) : List Char :=
  let whole := s.takeWhile (· != '.')
  let zeros := s.drop (whole.length + 1)
  if !zeros.isEmpty && zeros.all (· == '0') then whole else s

def ungrouped (s : List Char) : List Char :=
  let groups := Text.splitWhere (· == '_') s
  if groups.any (·.isEmpty) then s else groups.flatten

def bare? (s : List Char) : Option (List Char) :=
  (withoutLeadingZeros? s).map fun rest => ungrouped (withoutZeroFraction rest)

def cleaned? (s : List Char) : Option (List Char) :=
  match Text.unpadded s with
  | '-' :: rest => (bare? rest).map ('-' :: ·)
  | '+' :: '-' :: _ => none
  | '+' :: rest => bare? rest
  | rest => bare? rest

/-- The integer of a sign, which has the given size, and digits, of which the first is no zero unless it is alone.
Too many digits are too many even if something else follows them. -/
def ofDigits (negative : Bool) (signSize : Nat) (s : List Char) : Checked Int :=
  let digits := s.takeWhile Char.isDigit
  let size : Int := decimalValue digits
  if digits.isEmpty || (digits.head? == some '0' && 1 < digits.length) then fail .unreadableInteger
  else if sizeLimit < signSize + digits.length then fail .oversizedInteger
  else if digits.length < s.length then fail .unreadableInteger
  else valid (if negative then -size else size)

def read (s : List Char) : Checked Int :=
  match cleaned? s with
  | none => fail .unreadableInteger
  | some ('-' :: digits) => ofDigits true 1 digits
  | some digits => ofDigits false 0 digits

end WrittenInteger

end FlowAtlas.Fields
