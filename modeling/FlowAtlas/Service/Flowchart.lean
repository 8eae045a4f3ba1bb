import FlowAtlas.Pattern.Caseless
import FlowAtlas.Pattern.Search
import FlowAtlas.Text.Pieces

namespace FlowAtlas.Flowchart

open Pattern

def fence : String := "```"

def heading : Pattern := group .subject (inOrder [caseless "flowchart", blanks1, caseless "td"])

def opened : Pattern := inOrder [literal fence, optional (caseless "mermaid"), blanks, heading]

def bare : Pattern := inOrder [atStart, blanks, heading, wordEdge]

/-- From the heading behind the first fence that has one up to the next fence. -/
def betweenFences? (reply : List Char) : Option (List Char) := do
  let found ← opened.search? reply
  let body ← Text.cutAt fence.toList found.afterSubject
  some (found.subject ++ body.1)

def whole? (reply : List Char) : Option (List Char) :=
  (bare.matchAt? [] reply).map fun found => found.subject ++ found.afterSubject

def ofReply? (reply : String) : Option String :=
  ((betweenFences? reply.toList).or (whole? reply.toList)).map fun text =>
    String.ofList (Text.trim text ++ ['\n'])

end FlowAtlas.Flowchart
