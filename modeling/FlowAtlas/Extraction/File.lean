import FlowAtlas.Extraction.Braced
import FlowAtlas.Extraction.Indented

namespace FlowAtlas.Extraction

def findingsOf (path : String) (dialect : Dialect) (lines : List (List Char)) : Findings :=
  match dialect with
  | .brace => (scanBraced .literal { findings := { file := path } } 1 lines).findings
  | .generic => (scanBraced .typed { findings := { file := path } } 1 lines).findings
  | .indent => (scanIndented { findings := { file := path } } 1 lines).findings

/-- Everything found in a text. The path is the identity of the file in the records. -/
def ofText (path text : String) (dialect : Dialect) : Extraction :=
  (findingsOf path dialect (Text.lines text.toList)).finish

end FlowAtlas.Extraction
