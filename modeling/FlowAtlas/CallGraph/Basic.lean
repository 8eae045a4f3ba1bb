import FlowAtlas.Source.Routine
import FlowAtlas.Table

/-! Who calls whom: routines by id, edges, and an index of them in both directions. -/

namespace FlowAtlas

structure CallEdge where
  callerId : String
  calleeId : String
  line : Int
  deriving DecidableEq, Repr

structure CallGraph where
  nodes : Table Routine := []
  edges : List CallEdge := []
  callees : Table (List String) := []
  callers : Table (List String) := []
  deriving DecidableEq, Repr

namespace CallGraph

def empty : CallGraph := {}

/-- A routine under its id; one that is already there is replaced, with its edges kept. -/
def addNode (graph : CallGraph) (routine : Routine) : CallGraph :=
  { graph with
    nodes := graph.nodes.put routine.id routine
    callees := graph.callees.putNew routine.id []
    callers := graph.callers.putNew routine.id [] }

def noteNew (item : String) (items : List String) : List String :=
  if items.contains item then items else items ++ [item]

def addEdge (graph : CallGraph) (edge : CallEdge) : CallGraph :=
  if graph.nodes.has edge.callerId && graph.nodes.has edge.calleeId then
    { graph with
      edges := graph.edges ++ [edge]
      callees := graph.callees.adjust edge.callerId (noteNew edge.calleeId)
      callers := graph.callers.adjust edge.calleeId (noteNew edge.callerId) }
  else graph

def ids (graph : CallGraph) : List String := graph.nodes.keys

def routines (graph : CallGraph) : List Routine := graph.nodes.map (·.2)

def calleesOf (graph : CallGraph) (id : String) : List String := (graph.callees.get? id).getD []

def callersOf (graph : CallGraph) (id : String) : List String := (graph.callers.get? id).getD []

/-- The ids that a symbol means: the id itself, else every routine of that name. -/
def find (graph : CallGraph) (symbol : String) : List String :=
  if graph.nodes.has symbol then [symbol]
  else (graph.nodes.filter fun entry => entry.2.name == symbol).map (·.1)

end CallGraph

end FlowAtlas
