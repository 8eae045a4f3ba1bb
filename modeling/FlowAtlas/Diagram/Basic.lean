import FlowAtlas.Diagram.NodeId

/-! Flow diagrams: nodes, edges, and subgraphs that group nodes by layer. -/

namespace FlowAtlas

namespace Diagram

inductive Style where
  | entry
  | process
  | decision
  | service
  | result
  deriving DecidableEq, Repr

namespace Style

def all : List Style := [entry, process, decision, service, result]

def label : Style → String
  | entry => "entry"
  | process => "process"
  | decision => "decision"
  | service => "service"
  | result => "result"

end Style

inductive Shape where
  | box
  | diamond
  deriving DecidableEq, Repr

namespace Shape

def all : List Shape := [box, diamond]

def label : Shape → String
  | box => "box"
  | diamond => "diamond"

end Shape

structure Node where
  id : String
  label : String
  style : Style
  shape : Shape := .box
  routineId : Option String := none
  deriving DecidableEq, Repr

structure Edge where
  source : String
  target : String
  label : Option String := none
  deriving DecidableEq, Repr

structure Subgraph where
  layer : String
  nodeIds : List String
  deriving DecidableEq, Repr

end Diagram

structure Diagram where
  nodes : List Diagram.Node := []
  edges : List Diagram.Edge := []
  subgraphs : List Diagram.Subgraph := []
  deriving DecidableEq, Repr

namespace Diagram

def node? (diagram : Diagram) (id : String) : Option Node := diagram.nodes.find? fun node => node.id == id

def decisionNodes (diagram : Diagram) : List Node := diagram.nodes.filter fun node => node.style == .decision

def edgesFrom (diagram : Diagram) (id : String) : List Edge := diagram.edges.filter fun edge => edge.source == id

end Diagram

end FlowAtlas
