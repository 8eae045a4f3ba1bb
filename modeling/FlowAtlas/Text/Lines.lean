import FlowAtlas.Text.Pieces

namespace FlowAtlas.Text

/-- The lines of a text without their ends; a carriage return and a line feed end one line. -/
def lines : List Char → List (List Char)
  | [] => []
  | '\r' :: '\n' :: rest => [] :: lines rest
  | c :: rest =>
    if isLineBreak c then [] :: lines rest
    else match lines rest with
      | [] => [[c]]
      | line :: others => (c :: line) :: others

def unifyNewlines : List Char → List Char
  | [] => []
  | '\r' :: '\n' :: rest => '\n' :: unifyNewlines rest
  | c :: rest => (if c == '\r' then '\n' else c) :: unifyNewlines rest

/-- The text with each tab replaced by blanks up to the next multiple of `width`. -/
def expandTabs (width : Nat) : Nat → List Char → List Char
  | _, [] => []
  | column, c :: rest =>
    if c == '\t' then
      let gap := width - column % width
      List.replicate gap ' ' ++ expandTabs width (column + gap) rest
    else c :: expandTabs width (column + 1) rest

def indentation (line : List Char) : Nat := ((expandTabs 4 0 line).takeWhile isBlank).length

end FlowAtlas.Text
