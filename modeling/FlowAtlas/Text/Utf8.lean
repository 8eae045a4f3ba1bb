/-! Text from bytes. A sequence of bytes that is no character, up to where that shows, counts as one fault. -/

namespace FlowAtlas.Text.Utf8

/-- A character that is not complete: its value so far, how many bytes are missing, and the bounds of the next. -/
structure Pending where
  value : Nat
  missing : Nat
  low : Nat := 128
  high : Nat := 191
  deriving DecidableEq, Repr

def lead? (byte : Nat) : Option Pending :=
  if 194 ≤ byte && byte ≤ 223 then some { value := byte - 192, missing := 1 }
  else if byte = 224 then some { value := 0, missing := 2, low := 160 }
  else if byte = 237 then some { value := 13, missing := 2, high := 159 }
  else if 225 ≤ byte && byte ≤ 239 then some { value := byte - 224, missing := 2 }
  else if byte = 240 then some { value := 0, missing := 3, low := 144 }
  else if byte = 244 then some { value := 4, missing := 3, high := 143 }
  else if 241 ≤ byte && byte ≤ 243 then some { value := byte - 240, missing := 3 }
  else none

/-- The characters of a byte sequence, with `none` for each fault. -/
def scan : Option Pending → List UInt8 → List (Option Char)
  | none, [] => []
  | some _, [] => [none]
  | none, byte :: rest => between byte.toNat rest
  | some pending, byte :: rest =>
    let value := byte.toNat
    if pending.low ≤ value && value ≤ pending.high then
      let total := pending.value * 64 + (value - 128)
      if pending.missing ≤ 1 then some (Char.ofNat total) :: scan none rest
      else scan (some { value := total, missing := pending.missing - 1 }) rest
    else none :: between value rest
termination_by _ bytes => (bytes.length, 0)
where
  between (byte : Nat) (rest : List UInt8) : List (Option Char) :=
    if byte < 128 then some (Char.ofNat byte) :: scan none rest
    else match lead? byte with
      | some pending => scan (some pending) rest
      | none => none :: scan none rest
  termination_by (rest.length, 1)

def decode? (bytes : List UInt8) : Option (List Char) := (scan none bytes).mapM id

def decode (bytes : List UInt8) : List Char :=
  (scan none bytes).map fun c => c.getD (Char.ofNat 65533)

end FlowAtlas.Text.Utf8
