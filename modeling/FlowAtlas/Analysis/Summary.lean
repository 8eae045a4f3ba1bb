import FlowAtlas.Source.Extraction
import FlowAtlas.Table
import FlowAtlas.Timestamp

namespace FlowAtlas

structure Brief where
  id : String
  name : String
  file : String
  layer : Option String := none
  importance : Int := 0
  kind : RoutineKind := .function
  entryPoint : Bool := false
  deriving DecidableEq, Repr

def Routine.brief (routine : Routine) : Brief :=
  { id := routine.id
    name := routine.name
    file := routine.file
    layer := routine.layer
    importance := routine.importance
    kind := routine.kind
    entryPoint := routine.entryPoint }

structure Summary where
  root : String
  moment : String
  files : Int
  routines : Int
  classes : Int
  imports : Int
  decisions : Int
  layerCounts : Table Int
  important : List Brief
  highlights : List String := []
  stats : TreeStats := {}
  deriving DecidableEq, Repr

namespace Summary

def highlightCount : Nat := 5

def highlight (decision : Decision) : String :=
  let owner := match decision.owner with
    | some owner => if owner.isEmpty then "global" else owner
    | none => "global"
  s!"{decision.kind.label} in {owner}: {decision.snippet}"

def owned (selected : List Routine) (decision : Decision) : Bool :=
  decision.owner.any fun owner => selected.any fun routine => routine.id == owner

def ofExtraction (root : String) (extraction : Extraction) (selected : List Routine)
    (layers : Table (List String)) (moment : Timestamp) : Summary :=
  { root
    moment := moment.written
    files := extraction.files.length
    routines := extraction.routines.length
    classes := extraction.classes.length
    imports := extraction.imports.length
    decisions := extraction.decisions.length
    layerCounts := layers.map fun entry => (entry.1, (entry.2.length : Int))
    important := selected.map Routine.brief
    highlights := ((extraction.decisions.filter (owned selected)).take highlightCount).map highlight
    stats := extraction.stats }

def inhabited (summary : Summary) : Table Int := summary.layerCounts.filter fun entry => entry.2 != 0

/-- The lines of the summary; what there is nothing to say of is left out. -/
def lines (summary : Summary) : List String :=
  let stats := summary.stats
  let layers := ", ".intercalate (summary.inhabited.map fun entry => s!"{entry.1} {entry.2}")
  let important := ", ".intercalate (summary.important.map fun brief => s!"{brief.name} ({brief.importance})")
  [s!"Repository at {summary.root}: {summary.files} source files, {summary.routines} functions, " ++
      s!"{summary.classes} classes"] ++
    (if stats.files = 0 then []
      else [s!"  Repository: {stats.files} files in {stats.directories} directories, " ++
        s!"{stats.lines} lines of source"]) ++
    (if layers.isEmpty then [] else [s!"  Layers: {layers}"]) ++
    (if summary.important.isEmpty then [] else [s!"  Important: {important}"])

def text (summary : Summary) : String := "\n".intercalate summary.lines

end Summary

end FlowAtlas
