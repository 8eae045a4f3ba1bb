import FlowAtlas.Text.Character

namespace FlowAtlas.Text

def CaseRun.image? (runs : List CaseRun) (code : Nat) : Option Nat :=
  (runs.find? (·.covers code)).map fun run => ((code : Int) + run.shift).toNat

/-- The lower case of one character; a dotted capital I keeps its dot as a mark of its own. -/
def lowerChar (c : Char) : List Char :=
  if c.toNat < 128 then [c.toLower]
  else if c.toNat == 304 then ['i', Char.ofNat 775]
  else match CaseRun.image? lowerRuns c.toNat with
    | some code => [Char.ofNat code]
    | none => [c]

def capitalSigma : Char := Char.ofNat 931

/-- Whether the nearest character that is not passed over has case. -/
def nextToCased (neighbours : List Char) : Bool :=
  match neighbours.dropWhile fun c => inRanges caseIgnorableRanges c.toNat with
  | [] => false
  | c :: _ => inRanges casedRanges c.toNat

def lowerFrom : List Char → List Char → List Char
  | _, [] => []
  | behind, c :: rest =>
    (if c == capitalSigma then
      [Char.ofNat (if nextToCased behind && !nextToCased rest then 962 else 963)]
    else lowerChar c) ++ lowerFrom (c :: behind) rest

def lower (s : List Char) : List Char := lowerFrom [] s

def upperChar (c : Char) : List Char :=
  if c.toNat < 128 then [c.toUpper]
  else match upperExpansions.lookup c.toNat with
    | some codes => codes.map Char.ofNat
    | none => match CaseRun.image? upperRuns c.toNat with
      | some code => [Char.ofNat code]
      | none => [c]

def upper (s : List Char) : List Char := s.flatMap upperChar

end FlowAtlas.Text
