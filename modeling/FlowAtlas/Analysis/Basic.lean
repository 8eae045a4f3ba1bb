import FlowAtlas.Analysis.Summary
import FlowAtlas.CallGraph.Resolution
import FlowAtlas.Diagram.Mermaid
import FlowAtlas.Diagram.Synthesis
import FlowAtlas.Extraction.File
import FlowAtlas.Log
import FlowAtlas.Ranking.Selection
import FlowAtlas.Tree.Walk

/-! The analysis of a tree: its files are read, calls resolved, routines classified and scored, the most important
ones selected and drawn. -/

namespace FlowAtlas

namespace Extraction

def lineCount (text : List Char) : Int := text.count '\n' + 1

def addFile (extraction : Extraction) (source : SourceFile) (text : List Char) : Extraction :=
  let found := ofText source.relativePath (String.ofList text) source.dialect
  let stats := { extraction.stats with lines := extraction.stats.lines + lineCount text }
  { extraction.append found with stats }

/-- The findings of all files of a walk that can be read. -/
def ofWalk (walk : Walk) : Extraction :=
  walk.sources.foldl (fun extraction file => (file.text?.map (extraction.addFile file.source)).getD extraction)
    { files := walk.sources.map (·.source), stats := walk.stats }

end Extraction

structure Landscape where
  graph : CallGraph
  layers : Table (List String)
  deriving DecidableEq, Repr

def Landscape.ofExtraction (extraction : Extraction) : Landscape :=
  let graph := CallGraph.ofRoutines extraction.routines
  let (classified, layers) := classify graph.routines
  let nodes := (classified.map Routine.scored).foldl (fun nodes routine => nodes.put routine.id routine) graph.nodes
  ⟨{ graph with nodes }, layers⟩

structure Analysis where
  root : String
  files : List SourceFile
  classes : List ClassDecl
  routines : List Routine
  imports : List ImportRef
  decisions : List Decision
  edges : List CallEdge
  layers : Table (List String)
  selected : List Routine
  diagram : Diagram
  diagramText : String
  summary : Summary
  deriving DecidableEq, Repr

namespace Analysis

def ofSelection (root : String) (extraction : Extraction) (landscape : Landscape) (selected : List Routine)
    (moment : Timestamp) : Analysis :=
  let diagram := Diagram.ofSelection selected landscape.layers
  { root
    files := extraction.files
    classes := extraction.classes
    routines := landscape.graph.routines
    imports := extraction.imports
    decisions := extraction.decisions
    edges := landscape.graph.edges
    layers := landscape.layers
    selected
    diagram
    diagramText := diagram.render
    summary := Summary.ofExtraction root extraction selected landscape.layers moment }

def ofExtraction (config : Config) (root : String) (extraction : Extraction) (moment : Timestamp) :
    Except SelectionFault Analysis := do
  let landscape := Landscape.ofExtraction extraction
  let selected ← select landscape.graph.routines landscape.layers config.selectionCap
  .ok (ofSelection root extraction landscape selected moment)

def ofEntries (config : Config) (root : String) (entries : Except PathFault (List Tree)) (moment : Timestamp) :
    Except SelectionFault Analysis :=
  ofExtraction config root (Extraction.ofWalk (Walk.ofEntries config root entries)) moment

end Analysis

end FlowAtlas
