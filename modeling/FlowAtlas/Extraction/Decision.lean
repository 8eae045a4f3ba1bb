import FlowAtlas.Pattern.Search
import FlowAtlas.Source.Routine

namespace FlowAtlas

namespace Decision

open Pattern

def wholeWord (choices : List String) : Pattern := inOrder [wordEdge, Pattern.words choices, wordEdge]

def logicalOperator : Pattern :=
  anyOf [literal "&&", literal "||", wholeWord ["and"], wholeWord ["or"]]

def evidence : DecisionKind → Pattern
  | .conditional => wholeWord ["if", "elif", "unless"]
  | .switch => either (wholeWord ["switch", "case"])
      (inOrder [atStart, literal "match", blanks1, one (noneOf "=(.")])
  | .loop => either (wholeWord ["for", "foreach", "while"])
      (inOrder [atStart, literal "loop", blanks, char '{'])
  | .ternary => inOrder [one Text.isBlank, char '?', one Text.isBlank]
  | .logical => logicalOperator

def kindOf? (code : List Char) : Option DecisionKind :=
  DecisionKind.all.find? fun kind => (evidence kind).occursIn code

/-- Logical and comparison operators. A lone angle sign counts unless it is part of an arrow or a shift. -/
def operator : Pattern :=
  anyOf [literal "&&", literal "||", wholeWord ["and"], wholeWord ["or"], wholeWord ["not"],
    literal "===", literal "!==", literal "==", literal "!=", literal "<=", literal ">=",
    inOrder [unlessBehind fun c => "<=>-".toList.contains c, oneOf "<>", unlessAhead (oneOf "<=>")]]

def weightOf (code : List Char) : Nat := 1 + (operator.findAll code).length

end Decision

end FlowAtlas
