import FlowAtlas.Text.CaseRanges
import FlowAtlas.Text.DecimalZeros
import FlowAtlas.Text.UnprintableRanges
import FlowAtlas.Text.WordRanges

/-! Classes of characters. ASCII is decided by rule, everything else by its table. -/

namespace FlowAtlas.Text

def inRanges (ranges : List (Nat × Nat)) (code : Nat) : Bool :=
  ranges.any fun range => range.1 ≤ code && code ≤ range.2

def CaseRun.covers (run : CaseRun) (code : Nat) : Bool :=
  run.first ≤ code && code ≤ run.last && (code - run.first) % run.step == 0

/-- Closed ranges of blank characters, the four separators of records and units among them. -/
def blankRanges : List (Nat × Nat) :=
  [(9, 13), (28, 32), (133, 133), (160, 160), (5760, 5760), (8192, 8202), (8232, 8233),
   (8239, 8239), (8287, 8287), (12288, 12288)]

def isBlank (c : Char) : Bool := inRanges blankRanges c.toNat

def isWord (c : Char) : Bool :=
  if c.toNat < 128 then c.isAlphanum || c == '_' else inRanges wordRanges c.toNat

def isUpper (c : Char) : Bool :=
  if c.toNat < 128 then c.isUpper else upperLetterRuns.any (·.covers c.toNat)

def isPrintable (c : Char) : Bool :=
  if c.toNat < 128 then 32 ≤ c.toNat && c.toNat < 127 else !inRanges unprintableRanges c.toNat

def isLineBreak (c : Char) : Bool :=
  inRanges [(10, 13), (28, 30), (133, 133), (8232, 8233)] c.toNat

def isDigit (c : Char) : Bool := (decimalDigit? c).isSome

end FlowAtlas.Text
