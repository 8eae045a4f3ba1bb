import FlowAtlas.Source.Routine
import FlowAtlas.Text.Case

namespace FlowAtlas

namespace Importance

def entryPoint : Int := 10
def exported : Int := 5
def incomingCall : Int := 2
def decision : Int := 3
def asynchronous : Int := 3
def businessLogic : Int := 4
def eventHandler : Int := 3
def lifecycle : Int := 15

def lifecycleNames : List String := ["main", "init", "activate", "start", "run"]

def isLifecycleName (name : String) : Bool :=
  lifecycleNames.contains (String.ofList (Text.lower name.toList))

def bonus (applies : Bool) (weight : Int) : Int := if applies then weight else 0

end Importance

namespace Routine

open Importance

def score (routine : Routine) : Int :=
  bonus routine.entryPoint Importance.entryPoint + bonus routine.exported Importance.exported +
    routine.incoming.length * incomingCall + routine.decisions.length * decision +
    bonus (routine.kind == .asyncFunction) asynchronous +
    bonus routine.businessLogic Importance.businessLogic + bonus routine.eventHandler Importance.eventHandler +
    bonus (isLifecycleName routine.name) lifecycle

def scored (routine : Routine) : Routine := { routine with importance := routine.score }

end Routine

namespace Ranking

/-- A routine goes before those that are not more important. -/
def insert (routine : Routine) : List Routine → List Routine
  | [] => [routine]
  | next :: rest =>
    if next.importance ≤ routine.importance then routine :: next :: rest else next :: insert routine rest

def rank (routines : List Routine) : List Routine := routines.foldr insert []

end Ranking

end FlowAtlas
