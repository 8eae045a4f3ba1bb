import FlowAtlas.Config
import FlowAtlas.Log
import FlowAtlas.Source.Extraction
import FlowAtlas.Table
import FlowAtlas.Text.Quoted
import FlowAtlas.Tree.Basic

namespace FlowAtlas

namespace Walk

inductive Item where
  | file (place : List String) (content : Except PathFault (List UInt8))
  | directory (place : List String)

mutual

/-- The directories that a walk comes to from an entry and, down to `depth` levels below, inside it. Each has its
place and what its listing gives, the entries or the reason why there are none. -/
def entered (config : Config) (depth : Nat) (place : List String) :
    Tree → List (List String × Except String (List Tree))
  | .directory _ entries =>
    (place, .ok entries) :: (if depth = 0 then [] else enteredEach config (depth - 1) place entries)
  | .closed _ reason => [(place, .error reason)]
  | .file _ _ | .linked _ => []

def enteredEach (config : Config) (depth : Nat) (place : List String) :
    List Tree → List (List String × Except String (List Tree))
  | [] => []
  | entry :: rest =>
    (if config.ignores entry.name then [] else entered config depth (place ++ [entry.name]) entry) ++
      enteredEach config depth place rest

end

def ownItems (config : Config) (place : List String) : Except String (List Tree) → List Item
  | .error _ => []
  | .ok entries => (entries.filter fun entry => !config.ignores entry.name).map fun
    | .file name content => .file (place ++ [name]) content
    | .linked name | .directory name _ | .closed name _ => .directory (place ++ [name])

def visit (config : Config) (depth : Nat) (place : List String) (tree : Tree) : List Item :=
  (entered config depth place tree).flatMap fun directory => ownItems config directory.1 directory.2

def extensionOf (place : List String) : String :=
  let text := extension ((place.getLast?.getD "").toList)
  if text.isEmpty then "no-extension" else String.ofList text

def tally (texts : List String) : Table Int :=
  texts.foldl (fun counts text => counts.put text ((counts.get? text).getD 0 + 1)) []

def filePlaces (items : List Item) : List (List String) :=
  items.filterMap fun
    | .file place _ => some place
    | .directory _ => none

def statsOf (items : List Item) : TreeStats :=
  let places := filePlaces items
  { files := places.length
    directories := items.length - places.length
    extensions := tally (places.map extensionOf) }

end Walk

structure SourceText where
  source : SourceFile
  content : Except PathFault (List UInt8)

structure Walk where
  sources : List SourceText
  stats : TreeStats
  warnings : List LogLine

namespace Walk

def source? (root : String) : Item → Option SourceText
  | .directory _ => none
  | .file place content =>
    (Dialect.ofFileName? (place.getLast?.getD "")).map fun dialect =>
      ⟨⟨place.foldl Path.join root, "/".intercalate place, dialect⟩, content⟩

def warning? (root : String) : List String × Except String (List Tree) → Option LogLine
  | (_, .ok _) => none
  | (place, .error reason) => some (.warning s!"Skipping unreadable directory {place.foldl Path.join root}: {reason}")

/-- The walk of the directory at a path, given its entries or the reason why they cannot be listed. -/
def ofEntries (config : Config) (root : String) (entries : Except PathFault (List Tree)) : Walk :=
  let tree := Tree.ofListing "" (entries.mapError PathFault.reason)
  let items := visit config config.maxDepth.toNat [] tree
  { sources := items.filterMap (source? root)
    stats := statsOf items
    warnings := (entered config config.maxDepth.toNat [] tree).filterMap (warning? root) }

end Walk

namespace SourceText

/-- The text of a file with unified line ends; faults in its bytes are replaced. -/
def text? (file : SourceText) : Option (List Char) :=
  match file.content with
  | .ok bytes => some (Text.unifyNewlines (Text.Utf8.decode bytes))
  | .error _ => none

def warning? (file : SourceText) : Option LogLine :=
  match file.content with
  | .ok _ => none
  | .error fault =>
    let path := Text.quoted file.source.path
    let cause := s!"[Errno {fault.number}] {fault.reason}: {path}"
    some (.warning s!"Skipping unreadable file {file.source.relativePath}: {cause}")

end SourceText

def Walk.log (walk : Walk) : List LogLine := walk.warnings ++ walk.sources.filterMap SourceText.warning?

end FlowAtlas
