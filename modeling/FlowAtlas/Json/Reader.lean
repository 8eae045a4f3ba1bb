import FlowAtlas.Json.Basic

/-! Reading JSON. Besides the standard's numbers, `NaN`, `Infinity` and `-Infinity` are read. -/

namespace FlowAtlas.Json

inductive Container where
  | list
  | object
  deriving DecidableEq, Repr

def Container.label : Container → String
  | list => "array"
  | object => "object"

/-- Why a text is no JSON, or none that is read: values nest too deeply, or an integer has too many digits. -/
inductive Fault where
  | byteOrderMark
  | expectingValue
  | expectingName
  | expectingColon
  | expectingComma
  | unterminatedText
  | controlCharacter
  | unknownEscape
  | badUnitEscape
  | loneSurrogate
  | extraData
  | tooDeep (container : Container)
  | oversizedInteger (limit digits : Nat)
  deriving DecidableEq, Repr

def Fault.label : Fault → String
  | byteOrderMark => "Unexpected UTF-8 BOM (decode using utf-8-sig)"
  | expectingValue => "Expecting value"
  | expectingName => "Expecting property name enclosed in double quotes"
  | expectingColon => "Expecting ':' delimiter"
  | expectingComma => "Expecting ',' delimiter"
  | unterminatedText => "Unterminated string starting at"
  | controlCharacter => "Invalid control character at"
  | unknownEscape => "Invalid \\escape"
  | badUnitEscape => "Invalid \\uXXXX escape"
  | loneSurrogate => "Lone surrogate"
  | extraData => "Extra data"
  | tooDeep container =>
    s!"maximum recursion depth exceeded while decoding a JSON {container.label} from a unicode string"
  | oversizedInteger limit digits =>
    s!"Exceeds the limit ({limit} digits) for integer string conversion: value has {digits} digits; " ++
      "use sys.set_int_max_str_digits() to increase the limit"

def Fault.isOfMeasure : Fault → Bool
  | tooDeep _ | oversizedInteger _ _ => true
  | _ => false

structure Stop where
  fault : Fault
  left : Nat
  deriving DecidableEq, Repr

/-- What a reader tolerates: halves of characters, lists and objects that are not empty inside one another, and
digits of an integer. The last limit may be for all numbers, up to their points and with their signs. -/
structure Leniency where
  loneSurrogates : Bool := true
  depthLimit : Option Nat := none
  digitLimit : Option Nat := none
  digitsOfAll : Bool := false

def isSpace (c : Char) : Bool := c == ' ' || c == '\t' || c == '\n' || c == '\r'

def skipSpaces (s : List Char) : List Char := s.dropWhile isSpace

def hexValue? (c : Char) : Option Nat :=
  if c.isDigit then some (c.toNat - 48)
  else if 'a' ≤ c && c ≤ 'f' then some (c.toNat - 87)
  else if 'A' ≤ c && c ≤ 'F' then some (c.toNat - 55)
  else none

def unit? (a b c d : Char) : Option Nat := do
  let a ← hexValue? a
  let b ← hexValue? b
  let c ← hexValue? c
  let d ← hexValue? d
  some (a * 4096 + b * 256 + c * 16 + d)

def isHighSurrogate (unit : Nat) : Bool := 55296 ≤ unit && unit < 56320

def isLowSurrogate (unit : Nat) : Bool := 56320 ≤ unit && unit < 57344

def replacementChar : Char := Char.ofNat 65533

def simpleEscape? (c : Char) : Option Char :=
  if c == '\x22' || c == '\\' || c == '/' then some c
  else if c == 'b' then some '\x08'
  else if c == 'f' then some '\x0c'
  else if c == 'n' then some '\n'
  else if c == 'r' then some '\r'
  else if c == 't' then some '\t'
  else none

inductive Piece where
  | char (c : Char)
  | unit (value : Nat)
  deriving DecidableEq, Repr

def push {α : Type} (a : α) (read : Except Stop (List α × List Char)) : Except Stop (List α × List Char) :=
  read.map fun (tail, rest) => (a :: tail, rest)

/-- The pieces of a text up to its closing quote. `opening` is the number of characters from the opening quote
to the end. -/
def pieces (opening : Nat) : List Char → Except Stop (List Piece × List Char)
  | [] => .error ⟨.unterminatedText, opening⟩
  | '\\' :: 'u' :: a :: b :: c :: d :: rest =>
    match if rest.isEmpty then none else unit? a b c d with
    | some unit => push (.unit unit) (pieces opening rest)
    | none => .error ⟨.badUnitEscape, rest.length + 5⟩
  | '\\' :: 'u' :: rest => .error ⟨.badUnitEscape, rest.length + 1⟩
  | '\\' :: c :: rest =>
    match simpleEscape? c with
    | some plain => push (.char plain) (pieces opening rest)
    | none => .error ⟨.unknownEscape, rest.length + 2⟩
  | c :: rest =>
    if c == '\x22' then .ok ([], rest)
    else if c == '\\' then .error ⟨.unterminatedText, opening⟩
    else if c.toNat < 32 then .error ⟨.controlCharacter, rest.length + 1⟩
    else push (.char c) (pieces opening rest)

/-- The characters of a quoted text. Two units that are the halves of a pair make one character. -/
def join? (loneSurrogates : Bool) : List Piece → Option (List Char)
  | [] => some []
  | .char c :: rest => (join? loneSurrogates rest).map (c :: ·)
  | .unit high :: .unit low :: rest =>
    if isHighSurrogate high && isLowSurrogate low then
      (join? loneSurrogates rest).map (Char.ofNat (65536 + (high - 55296) * 1024 + (low - 56320)) :: ·)
    else if isHighSurrogate high || isLowSurrogate high then
      if loneSurrogates then (join? loneSurrogates (.unit low :: rest)).map (replacementChar :: ·) else none
    else (join? loneSurrogates (.unit low :: rest)).map (Char.ofNat high :: ·)
  | .unit unit :: rest =>
    if isHighSurrogate unit || isLowSurrogate unit then
      if loneSurrogates then (join? loneSurrogates rest).map (replacementChar :: ·) else none
    else (join? loneSurrogates rest).map (Char.ofNat unit :: ·)

def readText (lenient : Leniency) (s : List Char) : Except Stop (String × List Char) := do
  let (parts, rest) ← pieces (s.length + 1) s
  match join? lenient.loneSurrogates parts with
  | some chars => .ok (String.ofList chars, rest)
  | none => .error ⟨.loneSurrogate, rest.length⟩

def digitsValue (digits : List Char) : Nat := digits.foldl (fun n c => 10 * n + (c.toNat - 48)) 0

def readFraction : List Char → List Char × List Char
  | '.' :: rest =>
    let digits := rest.takeWhile Char.isDigit
    if digits.isEmpty then ([], '.' :: rest) else (digits, rest.dropWhile Char.isDigit)
  | s => ([], s)

def readExponent (s : List Char) : Option (Int × List Char) :=
  match s with
  | e :: rest =>
    if e == 'e' || e == 'E' then
      let (negative, rest) := match rest with
        | '-' :: rest => (true, rest)
        | '+' :: rest => (false, rest)
        | rest => (false, rest)
      let digits := rest.takeWhile Char.isDigit
      if digits.isEmpty then none
      else
        let size : Int := digitsValue digits
        some (if negative then -size else size, rest.dropWhile Char.isDigit)
    else none
  | [] => none

def wholeDigits (s : List Char) : List Char :=
  match s with
  | '0' :: _ => ['0']
  | s => s.takeWhile Char.isDigit

def readNumber? (negative : Bool) (s : List Char) : Option (Json × List Char) :=
  let whole := wholeDigits s
  if whole.isEmpty then none
  else
    let (fraction, rest) := readFraction (s.drop whole.length)
    match readExponent rest with
    | some (exponent, rest) =>
      some (real (.ofDecimal negative (digitsValue (whole ++ fraction)) (exponent - fraction.length)), rest)
    | none =>
      if fraction.isEmpty then
        let size : Int := digitsValue whole
        some (int (if negative then -size else size), rest)
      else some (real (.ofDecimal negative (digitsValue (whole ++ fraction)) (-fraction.length)), rest)

def Leniency.exceeded? (lenient : Leniency) (negative : Bool) (digits : Nat) (number : Json) : Option Nat :=
  lenient.digitLimit.filter fun limit =>
    match number with
    | int _ => limit < digits + (lenient.digitsOfAll && negative).toNat
    | _ => lenient.digitsOfAll && limit < digits + negative.toNat

def literals : List (String × Json) :=
  [("null", null), ("true", bool true), ("false", bool false), ("NaN", real .nan),
   ("Infinity", real (.infinite false)), ("-Infinity", real (.infinite true))]

def readScalar (lenient : Leniency) (s : List Char) : Except Stop (Json × List Char) :=
  match literals.find? fun entry => entry.1.toList.isPrefixOf s with
  | some (word, value) => .ok (value, s.drop word.length)
  | none =>
    let (negative, body) := match s with
      | '-' :: rest => (true, rest)
      | s => (false, s)
    let digits := (wholeDigits body).length
    match readNumber? negative body with
    | some (number, rest) =>
      match lenient.exceeded? negative digits number with
      | some limit => .error ⟨.oversizedInteger limit digits, s.length⟩
      | none => .ok (number, rest)
    | none => .error ⟨.expectingValue, s.length⟩

mutual

/-- A value at the head of a text. Each call reads at least one character or is followed by one that does, so
twice the number of characters is limit enough. -/
def readValue (lenient : Leniency) (depth : Nat) : Nat → List Char → Except Stop (Json × List Char)
  | 0, s => .error ⟨.expectingValue, s.length⟩
  | limit + 1, s =>
    match s with
    | '\x22' :: rest => (readText lenient rest).map fun (value, rest) => (text value, rest)
    | '[' :: rest =>
      match skipSpaces rest with
      | ']' :: rest => .ok (list [], rest)
      | rest =>
        if lenient.depthLimit.any (· ≤ depth) then .error ⟨.tooDeep .list, rest.length⟩
        else (readItems lenient (depth + 1) limit rest).map fun (items, rest) => (list items, rest)
    | '\x7b' :: rest =>
      match skipSpaces rest with
      | '\x7d' :: rest => .ok (object [], rest)
      | rest =>
        if lenient.depthLimit.any (· ≤ depth) then .error ⟨.tooDeep .object, rest.length⟩
        else (readFields lenient (depth + 1) limit rest).map fun (fields, rest) => (object fields, rest)
    | s => readScalar lenient s

def readItems (lenient : Leniency) (depth : Nat) : Nat → List Char → Except Stop (List Json × List Char)
  | 0, s => .error ⟨.expectingValue, s.length⟩
  | limit + 1, s => do
    let (item, rest) ← readValue lenient depth limit s
    match skipSpaces rest with
    | ']' :: rest => .ok ([item], rest)
    | ',' :: rest => push item (readItems lenient depth limit (skipSpaces rest))
    | rest => .error ⟨.expectingComma, rest.length⟩

def readFields (lenient : Leniency) (depth : Nat) : Nat → List Char → Except Stop (List (String × Json) × List Char)
  | 0, s => .error ⟨.expectingValue, s.length⟩
  | limit + 1, s =>
    match s with
    | '\x22' :: rest => do
      let (name, rest) ← readText lenient rest
      match skipSpaces rest with
      | ':' :: rest => do
        let (value, rest) ← readValue lenient depth limit (skipSpaces rest)
        match skipSpaces rest with
        | '\x7d' :: rest => .ok ([(name, value)], rest)
        | ',' :: rest => push (name, value) (readFields lenient depth limit (skipSpaces rest))
        | rest => .error ⟨.expectingComma, rest.length⟩
      | rest => .error ⟨.expectingColon, rest.length⟩
    | s => .error ⟨.expectingName, s.length⟩

end

def byteOrderMark : Char := Char.ofNat 65279

def readChars (lenient : Leniency) (s : List Char) : Except Stop Json := do
  if s.head? == some byteOrderMark then throw ⟨.byteOrderMark, s.length⟩
  let (value, rest) ← readValue lenient 0 (2 * s.length + 2) (skipSpaces s)
  match skipSpaces rest with
  | [] => .ok value
  | rest => .error ⟨.extraData, rest.length⟩

def Stop.message (stop : Stop) (s : List Char) : String :=
  if stop.fault.isOfMeasure then stop.fault.label
  else
    let behind := s.take (s.length - stop.left)
    let line := behind.count '\n' + 1
    let column := (behind.reverse.takeWhile (· != '\n')).length + 1
    s!"{stop.fault.label}: line {line} column {column} (char {behind.length})"

end FlowAtlas.Json
