import FlowAtlas.Source.Dialect
import FlowAtlas.Source.Routine

namespace FlowAtlas

structure SourceFile where
  path : String
  relativePath : String
  dialect : Dialect
  deriving DecidableEq, Repr

/-- Counts over every entry of a tree that is not ignored. The lines are those of the source files that could
be read. -/
structure TreeStats where
  files : Int := 0
  directories : Int := 0
  lines : Int := 0
  extensions : List (String × Int) := []
  deriving DecidableEq, Repr

structure Extraction where
  files : List SourceFile := []
  stats : TreeStats := {}
  classes : List ClassDecl := []
  routines : List Routine := []
  imports : List ImportRef := []
  decisions : List Decision := []
  deriving DecidableEq, Repr

namespace Extraction

def append (first second : Extraction) : Extraction :=
  { first with
    classes := first.classes ++ second.classes
    routines := first.routines ++ second.routines
    imports := first.imports ++ second.imports
    decisions := first.decisions ++ second.decisions }

end Extraction

end FlowAtlas
