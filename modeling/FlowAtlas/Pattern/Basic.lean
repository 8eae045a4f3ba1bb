import FlowAtlas.Text.Character

/-! Patterns over text with ordered choice: a pattern names the ways to read a text from a place, the preferred
way first. -/

namespace FlowAtlas

inductive Group where
  | subject
  | receiver
  deriving DecidableEq, Repr

inductive Pattern where
  | empty
  | one (accepts : Char → Bool)
  | seq (first second : Pattern)
  | either (first second : Pattern)
  | run (accepts : Char → Bool)
  | briefRun (accepts : Char → Bool)
  | many (body : Pattern)
  | group (label : Group) (body : Pattern)
  | unlessAhead (body : Pattern)
  | unlessBehind (accepts : Char → Bool)
  | atStart
  | atEnd
  | wordEdge

namespace Pattern

/-- A part of a text: the `size` characters in front of `rest`. Those in front of it are given nearest first. -/
structure Span where
  behind : List Char
  size : Nat
  rest : List Char
  deriving DecidableEq, Repr

def Span.text (span : Span) : List Char := (span.behind.take span.size).reverse

/-- A place in a text: the characters behind it, nearest first, and those ahead; `used` of the former were
read by the pattern. -/
structure Place where
  behind : List Char
  ahead : List Char
  used : Nat := 0
  groups : List (Group × Span) := []
  deriving DecidableEq, Repr

namespace Place

def since (start stop : Place) : List Char := (stop.behind.take (stop.used - start.used)).reverse

def advance (place : Place) (c : Char) (rest : List Char) : Place :=
  { place with behind := c :: place.behind, ahead := rest, used := place.used + 1 }

def record (start : Place) (label : Group) (stop : Place) : Place :=
  { stop with groups := (label, ⟨stop.behind, stop.used - start.used, stop.ahead⟩) :: stop.groups }

def isWordEdge (place : Place) : Bool :=
  (place.behind.head?.any Text.isWord) != (place.ahead.head?.any Text.isWord)

def isEnd (place : Place) : Bool :=
  match place.ahead with
  | [] => true
  | [c] => c == '\n'
  | _ => false

end Place

/-- The places after zero or more characters of a class, the farthest first, in front of `nearer`. -/
def runs (accepts : Char → Bool) (place : Place) (nearer : List Place) : List Char → List Place
  | [] => place :: nearer
  | c :: rest =>
    if accepts c then runs accepts (place.advance c rest) (place :: nearer) rest else place :: nearer

def briefRuns (accepts : Char → Bool) (place : Place) : List Char → List Place
  | [] => [place]
  | c :: rest =>
    if accepts c then place :: briefRuns accepts (place.advance c rest) rest else [place]

/-- The places after at most `limit` rounds of a step, more rounds first, in front of `fewer`. -/
def rounds (step : Place → List Place) : Nat → Place → List Place → List Place
  | 0, place, fewer => place :: fewer
  | limit + 1, place, fewer => (step place).foldr (rounds step limit) (place :: fewer)

/-- The places that a reading from `place` can end at, in order of preference. A repeated body that reads at
least one character a round has no more rounds than characters ahead. -/
def places : Pattern → Place → List Place
  | empty, place => [place]
  | one accepts, place =>
    match place.ahead with
    | c :: rest => if accepts c then [place.advance c rest] else []
    | [] => []
  | seq first second, place => (places first place).flatMap (places second)
  | either first second, place => places first place ++ places second place
  | run accepts, place => runs accepts place [] place.ahead
  | briefRun accepts, place => briefRuns accepts place place.ahead
  | many body, place => rounds (places body) place.ahead.length place []
  | group label body, place => (places body place).map (place.record label)
  | unlessAhead body, place => if (places body place).isEmpty then [place] else []
  | unlessBehind accepts, place => if place.behind.head?.any accepts then [] else [place]
  | atStart, place => if place.behind.isEmpty then [place] else []
  | atEnd, place => if place.isEnd then [place] else []
  | wordEdge, place => if place.isWordEdge then [place] else []

def inOrder : List Pattern → Pattern
  | [] => empty
  | [last] => last
  | first :: rest => seq first (inOrder rest)

def anyOf : List Pattern → Pattern
  | [] => unlessAhead empty
  | [last] => last
  | first :: rest => either first (anyOf rest)

def char (c : Char) : Pattern := one (· == c)

def literal (s : String) : Pattern := inOrder (s.toList.map char)

def oneOf (choices : String) : Pattern := one fun c => choices.toList.contains c

def words (choices : List String) : Pattern := anyOf (choices.map literal)

def optional (body : Pattern) : Pattern := either body empty

def run1 (accepts : Char → Bool) : Pattern := seq (one accepts) (run accepts)

def atLeastOnce (body : Pattern) : Pattern := seq body (many body)

def blanks : Pattern := run Text.isBlank

def blanks1 : Pattern := run1 Text.isBlank

def word : Pattern := run1 Text.isWord

def noneOf (excluded : String) (c : Char) : Bool := !excluded.toList.contains c

end Pattern

end FlowAtlas
