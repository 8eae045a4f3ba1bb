import FlowAtlas.Text.Character

namespace FlowAtlas.Text

def lowerHexDigit (n : Nat) : Char := if n < 10 then Char.ofNat (48 + n) else Char.ofNat (87 + n)

def hexDigits : Nat → Nat → List Char
  | 0, _ => []
  | count + 1, n => hexDigits count (n / 16) ++ [lowerHexDigit (n % 16)]

def quotedChar (quote c : Char) : List Char :=
  if c == quote || c == '\\' then ['\\', c]
  else if c == '\n' then ['\\', 'n']
  else if c == '\r' then ['\\', 'r']
  else if c == '\t' then ['\\', 't']
  else if isPrintable c then [c]
  else if c.toNat < 256 then '\\' :: 'x' :: hexDigits 2 c.toNat
  else if c.toNat < 65536 then '\\' :: 'u' :: hexDigits 4 c.toNat
  else '\\' :: 'U' :: hexDigits 8 c.toNat

/-- Single quotes, unless the text has some and no double ones. -/
def quoted (s : String) : String :=
  let chars := s.toList
  let quote := if chars.contains '\x27' && !chars.contains '\x22' then '\x22' else '\x27'
  String.ofList (quote :: chars.flatMap (quotedChar quote) ++ [quote])

end FlowAtlas.Text
