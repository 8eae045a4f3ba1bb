import FlowAtlas.Naming.Words
import FlowAtlas.Source.Routine
import FlowAtlas.Table

/-! Architectural layers, told from the names of routines and of the classes they belong to. -/

namespace FlowAtlas

inductive Layer where
  | entryPoints
  | controllers
  | services
  | models
  | utilities
  | eventHandlers
  | businessLogic
  deriving DecidableEq, Repr

namespace Layer

def all : List Layer :=
  [entryPoints, controllers, services, models, utilities, eventHandlers, businessLogic]

def label : Layer → String
  | entryPoints => "Entry Points"
  | controllers => "Controllers"
  | services => "Services"
  | models => "Models"
  | utilities => "Utilities"
  | eventHandlers => "Event Handlers"
  | businessLogic => "Business Logic"

def labels : List String := all.map label

def namedAfter (terms : List String) (routine : Routine) : Bool :=
  let candidates := (routine.name :: routine.owner.toList).map fun name => Text.lower name.toList
  terms.any fun term => candidates.any fun candidate => Text.contains term.toList candidate

def claims (routine : Routine) : Layer → Bool
  | entryPoints => routine.entryPoint
  | controllers => namedAfter ["controller"] routine
  | services => namedAfter ["service"] routine
  | models => namedAfter ["model"] routine
  | utilities => namedAfter ["util", "helper"] routine
  | eventHandlers => routine.eventHandler
  | businessLogic => routine.businessLogic

/-- The layers of a routine; one that no layer claims is a utility. -/
def labelsOf (routine : Routine) : List String :=
  let claimed := (all.filter (claims routine)).map label
  if claimed.isEmpty then [utilities.label] else claimed

end Layer

namespace Routine

def flagged (routine : Routine) : Routine :=
  { routine with
    entryPoint := Naming.isEntryPoint routine.name
    eventHandler := Naming.isEventHandler routine.name
    businessLogic := Naming.isBusinessLogic routine.name }

def classified (routine : Routine) : Routine :=
  let layers := Layer.labelsOf routine.flagged
  { routine.flagged with layers, layer := layers.head? }

end Routine

def layerMap (routines : List Routine) : Table (List String) :=
  Layer.labels.map fun label =>
    (label, (routines.filter fun routine => routine.layers.contains label).map (·.id))

def classify (routines : List Routine) : List Routine × Table (List String) :=
  let classified := routines.map Routine.classified
  (classified, layerMap classified)

end FlowAtlas
