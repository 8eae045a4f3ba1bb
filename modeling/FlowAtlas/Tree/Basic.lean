import FlowAtlas.Tree.Path

/-! Directory trees as they are walked: links are followed to files and not entered where they lead to
directories. -/

namespace FlowAtlas

/-- A named entry. A file has its bytes, or the reason why it cannot be read; a closed directory is one that cannot
be listed. -/
inductive Tree where
  | file (name : String) (content : Except PathFault (List UInt8))
  | linked (name : String)
  | directory (name : String) (entries : List Tree)
  | closed (name reason : String)

namespace Tree

def name : Tree → String
  | file name _ => name
  | linked name => name
  | directory name _ => name
  | closed name _ => name

def ofListing (name : String) : Except String (List Tree) → Tree
  | .ok entries => directory name entries
  | .error reason => closed name reason

def isFile : Tree → Bool
  | file _ _ => true
  | _ => false

end Tree

end FlowAtlas
