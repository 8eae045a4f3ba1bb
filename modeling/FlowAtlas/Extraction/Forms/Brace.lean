import FlowAtlas.Extraction.Forms.Basic

namespace FlowAtlas.Extraction.Brace

open Pattern

def classForms : List Pattern :=
  [inOrder [atStart, optional (keyword "export"), optional (keyword "default"), optional (keyword "abstract"),
    keyword "class", subject]]

def namedFunction : RoutineForm where
  pattern := inOrder [atStart, optional (keyword "export"), optional (keyword "default"),
    optional (keyword "async"), literal "function", blanks, optional (char '*'), blanks, subject, blanks,
    char '(']

def methodModifiers : List String :=
  ["public", "private", "protected", "static", "readonly", "override", "abstract", "async", "get", "set"]

/-- A name, a list of parameters and perhaps a result type in front of an opening brace. -/
def shorthandMethod : RoutineForm where
  pattern := inOrder [atStart, many (keywords methodModifiers), optional (char '*'), blanks, subject, blanks,
    optional angleBrackets, blanks, parentheses, blanks,
    optional (inOrder [char ':', blanks, run1 fun c => c != '=' && c != '\x7b']), char '\x7b']
  kind := .method

def functionProperty : RoutineForm where
  pattern := inOrder [atStart, subject, blanks, char ':', blanks, optional (keyword "async"),
    literal "function", wordEdge]
  kind := .method

def typeAnnotation : Pattern := inOrder [char ':', blanks, run1 (noneOf "=")]

def assignedArrow : RoutineForm where
  pattern := inOrder [atStart, optional (keyword "export"), optional (keywords ["const", "let", "var"]),
    many (keywords ["public", "private", "protected", "static", "readonly"]), subject, blanks,
    optional typeAnnotation, char '=', blanks, optional (keyword "async"), either parentheses word, blanks,
    optional typeAnnotation, literal "=>"]
  kind := .arrow

def exportedMember : RoutineForm where
  pattern := inOrder [atStart, optional (literal "module."), literal "exports.", subject, blanks, char '=',
    blanks, optional (keyword "async"),
    anyOf [seq (literal "function") wordEdge, inOrder [parentheses, blanks, literal "=>"],
      inOrder [word, blanks, literal "=>"]]]
  exported := true

def routineForms : List RoutineForm :=
  [namedFunction, shorthandMethod, functionProperty, assignedArrow, exportedMember]

def importForms : List Pattern :=
  [inOrder [atStart, literal "import", wordEdge, briefRun (· != '\n'), wordEdge, literal "from", blanks1,
     quotedSubject],
   inOrder [atStart, literal "import", blanks1, quotedSubject],
   inOrder [wordEdge, literal "require(", blanks, quotedSubject, blanks, char ')']]

def exportList : Pattern :=
  inOrder [atStart, either (inOrder [literal "module.exports", blanks, char '=']) (literal "export"), blanks,
    char '\x7b', group .subject (run fun c => c != '\x7d'), char '\x7d']

def exportedName (item : List Char) : List Char :=
  Text.upTo (· == ':') (Text.upTo (· == ' ') (Text.trim item))

def exportedNames (raw : List Char) : List String :=
  match exportList.search? raw with
  | some found =>
    (((Text.splitWhere (· == ',') found.subject).map exportedName).filter (!·.isEmpty)).map String.ofList
  | none => []

def importTargets (raw : List Char) : List String :=
  importForms.flatMap fun form => (form.findAll raw).map fun found => String.ofList found.subject

def isExportLine (code : List Char) : Bool :=
  Text.startsWith code "export" || Text.contains "module.exports".toList code

end FlowAtlas.Extraction.Brace
