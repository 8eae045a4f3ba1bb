import FlowAtlas.Pattern.Basic

namespace FlowAtlas

namespace Pattern

/-- A match: the characters behind it, nearest first, its text, the text ahead of it, and the parts that were
asked for. -/
structure Match where
  behind : List Char
  text : List Char
  rest : List Char
  groups : List (Group × Span)
  deriving DecidableEq, Repr

namespace Match

def group? (found : Match) (label : Group) : Option Span := found.groups.lookup label

def subject (found : Match) : List Char := (found.group? .subject).elim [] (·.text)

def afterSubject (found : Match) : List Char := (found.group? .subject).elim [] (·.rest)

def upToEnd (found : Match) : List Char := found.behind.reverse ++ found.text

end Match

def matchAt? (pattern : Pattern) (behind ahead : List Char) : Option Match :=
  let start : Place := { behind, ahead }
  (pattern.places start).head?.map fun stop => ⟨behind, start.since stop, stop.ahead, stop.groups⟩

def searchFrom (pattern : Pattern) (behind : List Char) : List Char → Option Match
  | [] => pattern.matchAt? behind []
  | c :: rest =>
    match pattern.matchAt? behind (c :: rest) with
    | some found => some found
    | none => searchFrom pattern (c :: behind) rest

def search? (pattern : Pattern) (s : List Char) : Option Match := pattern.searchFrom [] s

def occursIn (pattern : Pattern) (s : List Char) : Bool := (pattern.search? s).isSome

/-- The matches from a place on; the next `skip` characters belong to the match before. -/
def findAllFrom (pattern : Pattern) : Nat → List Char → List Char → List Match
  | _, _, [] => []
  | skip + 1, behind, c :: rest => findAllFrom pattern skip (c :: behind) rest
  | 0, behind, c :: rest =>
    match pattern.matchAt? behind (c :: rest) with
    | some found => found :: findAllFrom pattern (found.text.length - 1) (c :: behind) rest
    | none => findAllFrom pattern 0 (c :: behind) rest

def findAll (pattern : Pattern) (s : List Char) : List Match := pattern.findAllFrom 0 [] s

def replaceFrom (pattern : Pattern) (replacement : Match → List Char) : Nat → List Char → List Char → List Char
  | _, _, [] => []
  | skip + 1, behind, c :: rest => replaceFrom pattern replacement skip (c :: behind) rest
  | 0, behind, c :: rest =>
    match pattern.matchAt? behind (c :: rest) with
    | some found => replacement found ++ replaceFrom pattern replacement (found.text.length - 1) (c :: behind) rest
    | none => c :: replaceFrom pattern replacement 0 (c :: behind) rest

def replace (pattern : Pattern) (replacement : Match → List Char) (s : List Char) : List Char :=
  pattern.replaceFrom replacement 0 [] s

end Pattern

end FlowAtlas
