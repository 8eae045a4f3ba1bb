import FlowAtlas.Pattern.Search
import FlowAtlas.Text.Pieces

/-! The code of a line: its text without comments and with every string literal made empty. -/

namespace FlowAtlas.Extraction

open Pattern

def doubleQuote : Char := '\x22'

def singleQuote : Char := '\x27'

def backQuote : Char := '\x60'

/-- A literal between two quotes of one kind; a backslash keeps the character behind it from ending it. -/
def quotedBy (quote : Char) : Pattern :=
  inOrder [char quote,
    many (either (seq (char '\\') (one (· != '\n'))) (one fun c => c != quote && c != '\\')),
    char quote]

def stringLiteral : Pattern := anyOf [quotedBy doubleQuote, quotedBy singleQuote, quotedBy backQuote]

def emptyLiteral : List Char := [doubleQuote, doubleQuote]

theorem cutAt_rest_lt {needle s before rest : List Char} (found : Text.cutAt needle s = some (before, rest))
    (given : needle ≠ []) : rest.length < s.length := by
  induction s generalizing before rest with
  | nil => cases needle with
    | nil => exact absurd rfl given
    | cons c tail => simp [Text.cutAt] at found
  | cons c tail ih =>
    rw [Text.cutAt] at found
    split at found
    · rename_i starts
      cases needle with
      | nil => exact absurd rfl given
      | cons d more =>
        simp only [Option.some.injEq, Prod.mk.injEq] at found
        rw [← found.2]
        simp only [List.length_drop, List.length_cons]
        omega
    · cases inner : Text.cutAt needle tail with
      | none => simp [inner] at found
      | some cut =>
        simp only [inner, Option.map_some, Option.some.injEq, Prod.mk.injEq] at found
        have shorter : cut.2.length < tail.length := ih inner
        rw [← found.2]
        simp only [List.length_cons]
        omega

def stripBlockComments (inComment : Bool) (s : List Char) : List Char × Bool :=
  if inComment then
    match _ : Text.cutAt ['*', '/'] s with
    | none => ([], true)
    | some (_, rest) => stripBlockComments false rest
  else
    match _ : Text.cutAt ['/', '*'] s with
    | none => (s, false)
    | some (kept, rest) =>
      let (tail, stillOpen) := stripBlockComments true rest
      (kept ++ tail, stillOpen)
termination_by s.length
decreasing_by all_goals exact cutAt_rest_lt ‹_› (by simp)

def dropLineComment (s : List Char) : List Char :=
  match Text.cutAt ['/', '/'] s with
  | some (kept, _) => kept
  | none => s

def bracedCode (inComment : Bool) (raw : List Char) : List Char × Bool :=
  let (kept, stillOpen) := stripBlockComments inComment (stringLiteral.replace (fun _ => emptyLiteral) raw)
  (dropLineComment kept, stillOpen)

/-- Three double or three single quotes, which open and close a literal of several lines. -/
inductive LongQuote where
  | double
  | single
  deriving DecidableEq, Repr

def LongQuote.text : LongQuote → List Char
  | double => [doubleQuote, doubleQuote, doubleQuote]
  | single => [singleQuote, singleQuote, singleQuote]

def longQuote? (s : List Char) : Option LongQuote :=
  [LongQuote.double, LongQuote.single].find? fun quote => quote.text.isPrefixOf s

/-- The code of an indented line and the long literal that is open behind it. `opened` is the long literal that
the text begins in, and the next `skip` characters belong to what was read before. -/
def indentedCodeFrom (opened : Option LongQuote) : Nat → List Char → List Char × Option LongQuote
  | _, [] => ([], opened)
  | skip + 1, _ :: rest => indentedCodeFrom opened skip rest
  | 0, c :: rest =>
    match opened with
    | some quote =>
      if quote.text.isPrefixOf (c :: rest) then
        let (tail, last) := indentedCodeFrom none 2 rest
        (emptyLiteral ++ tail, last)
      else indentedCodeFrom opened 0 rest
    | none =>
      if c == '#' then ([], none)
      else match longQuote? (c :: rest) with
        | some quote => indentedCodeFrom (some quote) 2 rest
        | none =>
          if c == doubleQuote || c == singleQuote then
            match (quotedBy c).matchAt? [] (c :: rest) with
            | some found =>
              let (tail, last) := indentedCodeFrom none (found.text.length - 1) rest
              (emptyLiteral ++ tail, last)
            | none => (emptyLiteral, none)
          else
            let (tail, last) := indentedCodeFrom none 0 rest
            (c :: tail, last)

def indentedCode (opened : Option LongQuote) (raw : List Char) : List Char × Option LongQuote :=
  indentedCodeFrom opened 0 raw

end FlowAtlas.Extraction
