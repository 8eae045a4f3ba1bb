import FlowAtlas.Fields.WrittenInteger
import FlowAtlas.Json.Basic

namespace FlowAtlas.Fields

open Checked

def wordBound : Nat := 9223372036854775808

def isWord (i : Int) : Bool := -(wordBound : Int) ≤ i && i < wordBound

def readInteger : Json → Checked Int
  | .int i => valid i
  | .bool value => valid (if value then 1 else 0)
  | .real x =>
    if !x.isFinite then fail .endlessInteger
    else match x.toInt? with
      | none => fail .fractionalInteger
      | some i => if i.natAbs < wordBound then valid i else fail .oversizedInteger
  | .text s => WrittenInteger.read s.toList
  | _ => fail .notInteger

def switchWords : List (String × Bool) :=
  [("0", false), ("off", false), ("f", false), ("false", false), ("n", false), ("no", false), ("1", true),
   ("on", true), ("t", true), ("true", true), ("y", true), ("yes", true)]

def readBoolean : Json → Checked Bool
  | .bool value => valid value
  | .int i =>
    if i = 0 then valid false else if i = 1 then valid true
    else if isWord i then fail .unreadableBoolean else fail .notBoolean
  | .real x =>
    match x.toInt? with
    | some i =>
      if i = 0 then valid false else if i = 1 then valid true
      else if i.natAbs < wordBound then fail .unreadableBoolean else fail .notBoolean
    | none => fail .notBoolean
  | .text s =>
    match switchWords.lookup (String.ofList (s.toList.map Char.toLower)) with
    | some value => valid value
    | none => fail .unreadableBoolean
  | _ => fail .notBoolean

def signed (s : List Char) : Bool × List Char :=
  match s with
  | '-' :: rest => (true, rest)
  | '+' :: rest => (false, rest)
  | rest => (false, rest)

def exponent? : List Char → Option Int
  | [] => some 0
  | e :: rest =>
    let (negative, digits) := signed rest
    if (e == 'e' || e == 'E') && !digits.isEmpty && digits.all Char.isDigit then
      let size : Int := decimalValue digits
      some (if negative then -size else size)
    else none

def decimal? (negative : Bool) (s : List Char) : Option Binary64 :=
  let whole := s.takeWhile Char.isDigit
  let rest := s.dropWhile Char.isDigit
  let (fraction, rest) := match rest with
    | '.' :: rest => (rest.takeWhile Char.isDigit, rest.dropWhile Char.isDigit)
    | rest => ([], rest)
  if whole.isEmpty && fraction.isEmpty then none
  else (exponent? rest).map fun exponent =>
    .ofDecimal negative (decimalValue (whole ++ fraction)) (exponent - fraction.length)

def plainNumber? (s : List Char) : Option Binary64 :=
  let (negative, body) := signed s
  let lowered := String.ofList (body.map Char.toLower)
  if lowered == "nan" then some .nan
  else if lowered == "inf" || lowered == "infinity" then some (.infinite negative)
  else decimal? negative body

/-- Blanks around a number are dropped, unless underscores group its digits. -/
def number? (s : List Char) : Option Binary64 :=
  (plainNumber? (Text.unpadded s)).or (plainNumber? (WrittenInteger.ungrouped s))

/-- A number; `ofInt?` says which integers are taken for one. -/
def readNumber (ofInt? : Int → Option Binary64) : Json → Checked Binary64
  | .real x => valid x
  | .int i =>
    match ofInt? i with
    | some x => valid x
    | none => fail .notNumber
  | .bool value => valid (.round false (if value then 1 else 0) 1)
  | .text s =>
    match number? s.toList with
    | some x => valid x
    | none => fail .unreadableNumber
  | _ => fail .notNumber

def readText : Json → Checked String
  | .text s => valid s
  | _ => fail .notText

def readOptional {α : Type} (read : Json → Checked α) : Json → Checked (Option α)
  | .null => valid none
  | value => (read value).map some

def readChoice {α : Type} (choices : List α) (label : α → String) (value : Json) : Checked α :=
  let found := match value with
    | .text s => choices.find? fun choice => label choice == s
    | _ => none
  match found with
  | some choice => valid choice
  | none => fail (.noneOf (choices.map label))

def above (bound : Int) (i : Int) : Checked Int := if bound < i then valid i else fail (.notAbove bound)

def atLeast (bound : Int) (i : Int) : Checked Int := if bound ≤ i then valid i else fail (.notAtLeast bound)

end FlowAtlas.Fields
