import FlowAtlas.Extraction.Forms.Basic

namespace FlowAtlas.Extraction.Generic

open Pattern

def visibility : Pattern := seq (literal "pub") (optional parentheses)

def classModifiers : List String :=
  ["public", "private", "protected", "internal", "static", "final", "abstract", "sealed", "partial", "open",
   "data"]

def classForms : List Pattern :=
  [inOrder [atStart, many (seq (either (Pattern.words classModifiers) visibility) blanks1),
     keywords ["class", "struct", "interface", "enum", "trait", "impl", "object"],
     optional (seq angleBrackets blanks), subject],
   inOrder [atStart, keyword "type", subject, blanks1, Pattern.words ["struct", "interface"], wordEdge]]

def receiverFunction : RoutineForm where
  pattern := inOrder [atStart, keyword "func", optional (group .receiver (seq parentheses blanks)), subject,
    blanks, optional (inOrder [char '[', run (noneOf "]"), char ']']), blanks, char '(']

def foreignModifier : Pattern :=
  seq (literal "extern")
    (optional (inOrder [blanks1, char doubleQuote, run (· != doubleQuote), char doubleQuote]))

def modifiedFunction : RoutineForm where
  pattern := inOrder [atStart, optional (seq visibility blanks1),
    many (seq (either (Pattern.words ["async", "const", "unsafe"]) foreignModifier) blanks1),
    keyword "fn", subject]

def declaredFunction : RoutineForm where
  pattern := inOrder [atStart,
    many (keywords ["public", "private", "internal", "protected", "open", "override", "static", "suspend",
      "inline", "final", "class", "mutating"]),
    keywords ["fun", "func"], optional (seq angleBrackets blanks), subject, blanks, oneOf "(<"]

def statementWords : List String :=
  ["if", "else", "for", "while", "switch", "case", "return", "new", "throw", "delete", "await", "yield", "defer",
   "go", "package", "import", "using", "do", "try", "catch", "goto", "sizeof", "lock", "synchronized", "fixed",
   "checked", "unchecked"]

def noStatement : Pattern := unlessAhead (seq (Pattern.words statementWords) wordEdge)

def isTypeCharacter (c : Char) : Bool := Text.isWord c || "<>[],.*&:?".toList.contains c

def isNameStart (c : Char) : Bool := c.isAlpha || c == '_' || c == '~'

/-- Types and modifiers in front of a name, and no semicolon behind its parameters. -/
def typedFunction : RoutineForm where
  pattern := inOrder [atStart, noStatement, atLeastOnce (seq (run1 isTypeCharacter) blanks1),
    optional (oneOf "*&"), group .subject (seq (one isNameStart) (run Text.isWord)), blanks, char '(',
    run (noneOf ";"), atEnd]

def bareMethod : RoutineForm where
  pattern := inOrder [atStart, noStatement, subject, blanks, parentheses, blanks, char '\x7b']

def routineForms : List RoutineForm :=
  [receiverFunction, modifiedFunction, declaredFunction, typedFunction, bareMethod]

def receiverType : Pattern :=
  inOrder [char '(', blanks, word, blanks1, optional (char '*'), subject]

def exportWord : Pattern := inOrder [wordEdge, Pattern.words ["public", "pub", "export"], wordEdge]

def asyncWord : Pattern := inOrder [wordEdge, Pattern.words ["async", "suspend"], wordEdge]

def isPathCharacter (c : Char) : Bool := Text.isWord c || "./*-".toList.contains c

def importForms : List Pattern :=
  [inOrder [atStart, literal "import", blanks1, optional (keyword "static"), optional (char doubleQuote),
     group .subject (run1 isPathCharacter), optional (char doubleQuote)],
   inOrder [atStart, literal "using", blanks1, optional (keyword "static"),
     group .subject (run1 fun c => Text.isWord c || c == '.'), blanks, char ';'],
   inOrder [atStart, literal "#include", blanks, one fun c => c == '<' || c == doubleQuote,
     group .subject (run1 fun c => c != '>' && c != doubleQuote), one fun c => c == '>' || c == doubleQuote],
   inOrder [atStart, literal "use", blanks1, group .subject (run1 fun c => Text.isWord c || c == ':')]]

def importTarget? (raw : List Char) : Option String :=
  importForms.findSome? fun form => (form.search? raw).map fun found => String.ofList found.subject

def blockImport : Pattern :=
  inOrder [atStart, optional (seq word blanks1), char doubleQuote,
    group .subject (run1 (· != doubleQuote)), char doubleQuote]

end FlowAtlas.Extraction.Generic
