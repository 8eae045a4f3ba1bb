import FlowAtlas.CallGraph.Basic

namespace FlowAtlas.CallGraph

/-- One round of a breadth-first search: the routines of a frontier that were not met before get their depth,
and their callees make the next frontier. -/
def visit (graph : CallGraph) (depth : Nat) :
    List String → Table Nat → List String → Table Nat × List String
  | [], met, next => (met, next)
  | id :: frontier, met, next =>
    if met.has id then visit graph depth frontier met next
    else
      let met := met ++ [(id, depth)]
      visit graph depth frontier met (next ++ (graph.calleesOf id).filter fun callee => !met.has callee)

def search (graph : CallGraph) (depth : Nat) : Nat → List String → Table Nat → Table Nat
  | 0, _, met => met
  | rounds + 1, frontier, met =>
    if frontier.isEmpty then met
    else
      let (met, next) := graph.visit depth frontier met []
      search graph (depth + 1) rounds next met

def reachable (graph : CallGraph) (start : String) (limit : Int) : Table Nat :=
  if graph.nodes.has start then graph.search 0 (limit + 1).toNat [start] [] else []

def extend (graph : CallGraph) (path : List String) : List (List String) :=
  match path with
  | [] => []
  | last :: _ => ((graph.calleesOf last).filter fun callee => !path.contains callee).map fun callee => callee :: path

/-- Paths that end at a routine, from a list of paths of equal length that are extended at most `rounds - 1`
times. A path that has come to the end is not extended. -/
def pathsFrom (graph : CallGraph) (stop : String) : Nat → List (List String) → List (List String)
  | 0, _ => []
  | rounds + 1, paths =>
    if paths.isEmpty then []
    else
      let (done, going) := paths.partition fun path => path.head? == some stop
      done ++ pathsFrom graph stop rounds (going.flatMap graph.extend)

def paths (graph : CallGraph) (start stop : String) (limit : Int) : List (List String) :=
  if graph.nodes.has start && graph.nodes.has stop then
    (graph.pathsFrom stop (limit + 1).toNat [[start]]).map List.reverse
  else []

end FlowAtlas.CallGraph
