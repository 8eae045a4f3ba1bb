import FlowAtlas.CallGraph.Reach

namespace FlowAtlas

structure Reached where
  routine : Routine
  depth : Nat
  deriving DecidableEq, Repr

namespace CallGraph

def reachedOf (graph : CallGraph) (depths : Table Nat) : List Reached :=
  depths.filterMap fun entry => (graph.nodes.get? entry.1).map fun routine => ⟨routine, entry.2⟩

/-- A table of depths with those of another; of two depths the lesser counts. -/
def nearest (depths more : Table Nat) : Table Nat :=
  more.foldl (fun depths entry => depths.put entry.1 (min entry.2 ((depths.get? entry.1).getD entry.2))) depths

/-- The depths of everything that several routines reach, each counted from the nearest of them. -/
def reachableFromAny (graph : CallGraph) (starts : List String) (limit : Int) : Table Nat :=
  starts.foldl (fun depths start => nearest depths (graph.reachable start limit)) []

def callersOfEach (graph : CallGraph) (ids : List String) : Table (List String) :=
  ids.map fun id => (id, graph.callersOf id)

def edgesWithin (graph : CallGraph) (depths : Table Nat) : List CallEdge :=
  graph.edges.filter fun edge => depths.has edge.callerId && depths.has edge.calleeId

end CallGraph

structure SymbolReport where
  symbol : String
  found : List String
  callers : Table (List String)
  reached : List Reached
  edges : List CallEdge
  deriving DecidableEq, Repr

structure RoutineReport where
  id : String
  callers : List String
  reached : List Reached
  deriving DecidableEq, Repr

structure PathReport where
  start : String
  stop : String
  paths : List (List String)
  limit : Int
  deriving DecidableEq, Repr

namespace CallGraph

def report? (graph : CallGraph) (symbol : String) (limit : Int) : Option SymbolReport :=
  match graph.find symbol with
  | [] => none
  | found =>
    let depths := graph.reachableFromAny found limit
    some ⟨symbol, found, graph.callersOfEach found, graph.reachedOf depths, graph.edgesWithin depths⟩

def routineReport (graph : CallGraph) (limit : Int) (id : String) : RoutineReport :=
  ⟨id, graph.callersOf id, graph.reachedOf (graph.reachable id limit)⟩

def pathReport (graph : CallGraph) (start stop : String) (limit : Int) : PathReport :=
  ⟨start, stop, graph.paths start stop limit, limit⟩

end CallGraph

end FlowAtlas
