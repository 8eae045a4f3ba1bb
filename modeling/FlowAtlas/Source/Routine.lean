/-! What is found in a source tree: routines with their calls and decisions, classes and imports. -/

namespace FlowAtlas

structure CallSite where
  callee : String
  line : Int
  deriving DecidableEq, Repr

structure IncomingCall where
  callerId : String
  callerName : String
  file : String
  line : Int
  deriving DecidableEq, Repr

inductive DecisionKind where
  | conditional
  | switch
  | loop
  | ternary
  | logical
  deriving DecidableEq, Repr

namespace DecisionKind

def all : List DecisionKind := [conditional, switch, loop, ternary, logical]

def label : DecisionKind → String
  | conditional => "conditional"
  | switch => "switch"
  | loop => "loop"
  | ternary => "ternary"
  | logical => "logical"

end DecisionKind

structure Decision where
  kind : DecisionKind
  file : String
  line : Int
  snippet : String
  owner : Option String := none
  weight : Int := 1
  deriving DecidableEq, Repr

inductive RoutineKind where
  | function
  | method
  | arrow
  | asyncFunction
  | constructor
  deriving DecidableEq, Repr

namespace RoutineKind

def all : List RoutineKind := [function, method, arrow, asyncFunction, constructor]

def label : RoutineKind → String
  | function => "function"
  | method => "method"
  | arrow => "arrow"
  | asyncFunction => "async-function"
  | constructor => "constructor"

end RoutineKind

/-- A declaration that can be called. Incoming calls are filled in by call resolution, flags and layers by
classification, and the importance by scoring. -/
structure Routine where
  id : String
  name : String
  file : String
  line : Int
  owner : Option String := none
  kind : RoutineKind := .function
  exported : Bool := false
  entryPoint : Bool := false
  eventHandler : Bool := false
  businessLogic : Bool := false
  cyclomaticWeight : Int := 1
  outgoing : List CallSite := []
  incoming : List IncomingCall := []
  decisions : List Decision := []
  importance : Int := 0
  layers : List String := []
  layer : Option String := none
  deriving DecidableEq, Repr

structure ClassDecl where
  name : String
  file : String
  line : Int
  methods : List String := []
  exported : Bool := false
  deriving DecidableEq, Repr

structure ImportRef where
  file : String
  line : Int
  target : String
  deriving DecidableEq, Repr

end FlowAtlas
