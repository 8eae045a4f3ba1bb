import FlowAtlas.CallGraph.Basic

/-! Resolving calls by name: a call goes to every routine of that name. -/

namespace FlowAtlas

/-- A call and one routine that it may reach. -/
structure Link where
  caller : Routine
  callee : Routine
  line : Int
  deriving DecidableEq, Repr

namespace Link

/-- Caller by caller, call by call, callee by callee. -/
def all (routines : List Routine) : List Link :=
  routines.flatMap fun caller => caller.outgoing.flatMap fun call =>
    (routines.filter fun callee => callee.name == call.callee).map fun callee => ⟨caller, callee, call.line⟩

def edge (link : Link) : CallEdge := ⟨link.caller.id, link.callee.id, link.line⟩

def incoming (link : Link) : IncomingCall :=
  ⟨link.caller.id, link.caller.name, link.caller.file, link.line⟩

end Link

def Routine.withIncoming (routine : Routine) (links : List Link) : Routine :=
  { routine with incoming := (links.filter fun link => link.callee.id == routine.id).map Link.incoming }

namespace CallGraph

def ofRoutines (routines : List Routine) : CallGraph :=
  let links := Link.all routines
  let known := routines.foldl (fun graph routine => graph.addNode (routine.withIncoming links)) empty
  links.foldl (fun graph link => graph.addEdge link.edge) known

end CallGraph

end FlowAtlas
