namespace FlowAtlas.Text

def before : List Char → List Char → Bool
  | _, [] => false
  | [], _ :: _ => true
  | a :: s, b :: t => a.toNat < b.toNat || (a == b && before s t)

def insertDistinct (text : String) : List String → List String
  | [] => [text]
  | next :: rest =>
    if next == text then next :: rest
    else if before next.toList text.toList then next :: insertDistinct text rest
    else text :: next :: rest

def insertBy {α : Type} (name : α → String) (item : α) : List α → List α
  | [] => [item]
  | next :: rest =>
    if before (name next).toList (name item).toList then next :: insertBy name item rest else item :: next :: rest

def sortBy {α : Type} (name : α → String) (items : List α) : List α := items.foldr (insertBy name) []

end FlowAtlas.Text
