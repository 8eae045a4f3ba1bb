import FlowAtlas.Extraction.Code
import FlowAtlas.Extraction.Reserved
import FlowAtlas.Source.Routine

/-! Forms of declarations: patterns whose subject is the declared name. -/

namespace FlowAtlas.Extraction

open Pattern

structure RoutineForm where
  pattern : Pattern
  kind : RoutineKind := .function
  exported : Bool := false

def keyword (text : String) : Pattern := seq (literal text) blanks1

def keywords (choices : List String) : Pattern := seq (Pattern.words choices) blanks1

def subject : Pattern := group .subject word

def parentheses : Pattern := inOrder [char '(', run (noneOf ")"), char ')']

def angleBrackets : Pattern := inOrder [char '<', run (noneOf ">"), char '>']

def quotedSubject : Pattern :=
  let quotes := [doubleQuote, singleQuote]
  inOrder [one quotes.contains, group .subject (run1 fun c => !quotes.contains c), one quotes.contains]

def declared? (pattern : Pattern) (code : List Char) : Option Match := do
  let found ← pattern.search? code
  if isReserved (String.ofList found.subject) then none else some found

def declaredClass? (patterns : List Pattern) (code : List Char) : Option Match :=
  patterns.findSome? fun pattern => declared? pattern code

def declaredRoutine? (forms : List RoutineForm) (code : List Char) : Option (RoutineForm × Match) :=
  forms.findSome? fun form => (declared? form.pattern code).map fun found => (form, found)

/-- The rule for the kind of a routine: constructors by their name, asynchronous routines by their modifier, and
routines of a class are methods unless they are arrows. -/
def routineKind (formKind : RoutineKind) (name : String) (owner : Option String) (isAsync : Bool) : RoutineKind :=
  if name == "constructor" || name == "__init__" || owner == some name then .constructor
  else if isAsync then .asyncFunction
  else if formKind == .arrow then .arrow
  else if owner.isSome || formKind == .method then .method
  else .function

end FlowAtlas.Extraction
