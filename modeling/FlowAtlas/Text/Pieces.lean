import FlowAtlas.Text.Character

namespace FlowAtlas.Text

def trimStart (s : List Char) : List Char := s.dropWhile isBlank

def trimEnd (s : List Char) : List Char := (s.reverse.dropWhile isBlank).reverse

def trim (s : List Char) : List Char := trimEnd (trimStart s)

/-- Blank characters without the separators of records and units. -/
def isPadding (c : Char) : Bool := isBlank c && !(28 ≤ c.toNat && c.toNat < 32)

def unpadded (s : List Char) : List Char :=
  ((s.dropWhile isPadding).reverse.dropWhile isPadding).reverse

def splitWhere (p : Char → Bool) : List Char → List (List Char)
  | [] => [[]]
  | c :: rest =>
    if p c then [] :: splitWhere p rest
    else match splitWhere p rest with
      | [] => [[c]]
      | piece :: pieces => (c :: piece) :: pieces

def words (s : List Char) : List (List Char) :=
  (splitWhere isBlank s).filter fun piece => !piece.isEmpty

def upTo (p : Char → Bool) (s : List Char) : List Char := s.takeWhile fun c => !p c

def cutAt (needle : List Char) : List Char → Option (List Char × List Char)
  | [] => if needle.isEmpty then some ([], []) else none
  | c :: rest =>
    if needle.isPrefixOf (c :: rest) then some ([], (c :: rest).drop needle.length)
    else (cutAt needle rest).map fun cut => (c :: cut.1, cut.2)

def contains (needle hay : List Char) : Bool := (cutAt needle hay).isSome

def startsWith (s : List Char) (start : String) : Bool := start.toList.isPrefixOf s

def endsWith (s : List Char) (stop : String) : Bool := stop.toList.isSuffixOf s

end FlowAtlas.Text
