import FlowAtlas.Pattern.Search
import FlowAtlas.Text.Case
import FlowAtlas.Text.Pieces

namespace FlowAtlas.Naming

open Pattern

def isLowerOrDigit (c : Char) : Bool := c.isLower || c.isDigit

/-- A word begins at a capital, or is a run of capitals that does not run into a small letter. -/
def wordPattern : Pattern :=
  either (seq (optional (one Char.isUpper)) (run1 isLowerOrDigit))
    (seq (run1 Char.isUpper) (unlessAhead (one Char.isLower)))

def words (name : List Char) : List (List Char) :=
  (wordPattern.findAll name).map fun found => Text.lower found.text

def wholeWordTerms : List String := ["on"]

def mentions (vocabulary : List String) (name : String) : Bool :=
  vocabulary.any fun term =>
    if wholeWordTerms.contains term then (words name.toList).contains term.toList
    else Text.contains term.toList (Text.lower name.toList)

def entryVocabulary : List String :=
  ["main", "init", "activate", "start", "run", "execute", "constructor", "create", "register", "setup",
   "configure"]

def eventVocabulary : List String :=
  ["handle", "on", "click", "submit", "change", "load", "ready", "resize", "scroll", "hover", "focus", "blur",
   "keypress"]

def businessVocabulary : List String :=
  ["process", "calculate", "validate", "transform", "convert", "analyze", "generate", "build", "parse",
   "format", "filter"]

def initializerVocabulary : List String := ["init", "setup", "create", "load", "config", "register"]

def decisionVocabulary : List String := ["validate", "check", "verify", "handle"]

def isEntryPoint (name : String) : Bool := mentions entryVocabulary name

def isEventHandler (name : String) : Bool := mentions eventVocabulary name

def isBusinessLogic (name : String) : Bool := mentions businessVocabulary name

end FlowAtlas.Naming
