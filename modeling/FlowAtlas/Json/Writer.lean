import FlowAtlas.Decimal.Shortest
import FlowAtlas.Json.Basic

namespace FlowAtlas.Json

def hexDigit (n : Nat) : Char := if n < 10 then Char.ofNat (48 + n) else Char.ofNat (87 + n)

def unitEscape (unit : Nat) : List Char :=
  ['\\', 'u', hexDigit (unit / 4096 % 16), hexDigit (unit / 256 % 16), hexDigit (unit / 16 % 16),
   hexDigit (unit % 16)]

def escape (c : Char) : List Char :=
  let code := c.toNat
  if code = 34 then ['\\', c]
  else if code = 92 then ['\\', '\\']
  else if code = 10 then ['\\', 'n']
  else if code = 13 then ['\\', 'r']
  else if code = 9 then ['\\', 't']
  else if code = 12 then ['\\', 'f']
  else if code = 8 then ['\\', 'b']
  else if 32 ≤ code && code < 127 then [c]
  else if code < 65536 then unitEscape code
  else unitEscape (55296 + (code - 65536) / 1024) ++ unitEscape (56320 + (code - 65536) % 1024)

def quoted (s : String) : List Char :=
  '\x22' :: s.toList.flatMap escape ++ ['\x22']

def newLine (depth : Nat) : List Char := '\n' :: List.replicate (2 * depth) ' '

def bracketed (opening closing : Char) (depth : Option Nat) (items : List (List Char)) : List Char :=
  if items.isEmpty then [opening, closing]
  else match depth with
    | none => opening :: [',', ' '].intercalate items ++ [closing]
    | some depth =>
      opening :: newLine (depth + 1) ++ (',' :: newLine (depth + 1)).intercalate items ++
        newLine depth ++ [closing]

def realChars : Binary64 → List Char
  | .nan => "NaN".toList
  | .infinite negative => (if negative then "-Infinity" else "Infinity").toList
  | x => x.show

mutual

def writeChars (depth : Option Nat) : Json → List Char
  | null => "null".toList
  | bool value => (if value then "true" else "false").toList
  | int value => (toString value).toList
  | real value => realChars value
  | text value => quoted value
  | list items => bracketed '[' ']' depth (writeItems (depth.map (· + 1)) items)
  | object fields => bracketed '\x7b' '\x7d' depth (writeFields (depth.map (· + 1)) fields)

def writeItems (depth : Option Nat) : List Json → List (List Char)
  | [] => []
  | item :: items => writeChars depth item :: writeItems depth items

def writeFields (depth : Option Nat) : List (String × Json) → List (List Char)
  | [] => []
  | (name, value) :: fields =>
    (quoted name ++ ':' :: ' ' :: writeChars depth value) :: writeFields depth fields

end

def compact (value : Json) : String := String.ofList (writeChars none value)

def indented (value : Json) : String := String.ofList (writeChars (some 0) value)

end FlowAtlas.Json
