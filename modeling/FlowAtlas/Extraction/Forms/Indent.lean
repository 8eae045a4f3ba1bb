import FlowAtlas.Extraction.Forms.Basic

namespace FlowAtlas.Extraction.Indent

open Pattern

def classForms : List Pattern := [inOrder [atStart, keyword "class", subject]]

def routineForms : List RoutineForm :=
  [{ pattern := inOrder [atStart, optional (keyword "async"), keyword "def", subject, blanks, char '('] }]

def importItem : Pattern :=
  seq (run1 fun c => Text.isWord c || c == '.') (optional (inOrder [blanks1, literal "as", blanks1, word]))

def importList : Pattern :=
  inOrder [atStart, literal "import", blanks1,
    group .subject (seq importItem (many (inOrder [blanks, char ',', blanks, importItem])))]

def fromImport : Pattern :=
  inOrder [atStart, literal "from", blanks1, group .subject (run1 fun c => Text.isWord c || c == '.'), blanks1,
    literal "import", wordEdge]

def importTargets (code : List Char) : List String :=
  match fromImport.search? code with
  | some found => [String.ofList found.subject]
  | none =>
    match importList.search? code with
    | some found =>
      (Text.splitWhere (· == ',') found.subject).map fun item =>
        String.ofList (Text.upTo (· == ' ') (Text.trim item))
    | none => []

def publicList : Pattern :=
  inOrder [atStart, literal "__all__", blanks, optional (seq (char ':') (run (noneOf "="))),
    optional (char '+'), char '=']

def quotedName : Pattern :=
  let quotes := [doubleQuote, singleQuote]
  inOrder [one quotes.contains, subject, one quotes.contains]

def quotedNames (raw : List Char) : List String :=
  (quotedName.findAll raw).map fun found => String.ofList found.subject

end FlowAtlas.Extraction.Indent
