import FlowAtlas.Pattern.Search
import FlowAtlas.Text.Case
import FlowAtlas.Text.Pieces

namespace FlowAtlas.Naming

open Pattern

def outerUnderscores : Pattern :=
  either (seq atStart (run1 (· == '_'))) (seq (run1 (· == '_')) atEnd)

/-- The name without the underscores around it; a name of underscores alone keeps them. -/
def bareName (name : List Char) : List Char :=
  let bare := outerUnderscores.replace (fun _ => []) name
  if bare.isEmpty then name else bare

def spaceHumps : List Char → List Char
  | c :: d :: rest =>
    if (c.isLower || c.isDigit) && d.isUpper then c :: ' ' :: spaceHumps (d :: rest)
    else c :: spaceHumps (d :: rest)
  | s => s

def capitalize : List Char → List Char
  | [] => []
  | c :: rest => Text.upperChar c ++ rest

def title (name : String) : String :=
  let spaced := spaceHumps ((bareName name.toList).map fun c => if c == '_' then ' ' else c)
  String.ofList ([' '].intercalate ((Text.words spaced).map capitalize))

def questions : List (String × String) :=
  [("validate", "Valid input?"), ("check", "Check passed?"), ("verify", "Verification OK?"),
   ("handle", "Handle request?"), ("process", "Process data?")]

def question (name : String) : String :=
  let lowered := Text.lower name.toList
  match questions.find? fun entry => Text.contains entry.1.toList lowered with
  | some entry => entry.2
  | none => "Continue execution?"

end FlowAtlas.Naming
