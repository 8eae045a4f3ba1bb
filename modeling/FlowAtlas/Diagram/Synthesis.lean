import FlowAtlas.Diagram.Basic
import FlowAtlas.Layer
import FlowAtlas.Naming.Title
import FlowAtlas.Ranking.Importance
import FlowAtlas.Text.Order

/-! Drawing selected routines: an entry, the initializers, the routines that run with their decisions, and a
result, from top to bottom. -/

namespace FlowAtlas

namespace Routine

def isInitializer (routine : Routine) : Bool := Naming.mentions Naming.initializerVocabulary routine.name

def hasDecisionLogic (routine : Routine) : Bool :=
  (8 < routine.importance && !routine.decisions.isEmpty) ||
    Naming.mentions Naming.decisionVocabulary routine.name

/-- The layer that a routine carries, else the first known one whose members it is among. -/
def primaryLayer (layers : Table (List String)) (routine : Routine) : String :=
  match routine.layer with
  | some label => if label.isEmpty then ofMap else label
  | none => ofMap
where
  /-- The first layer, in layer order, that lists the routine. -/
  ofMap : String :=
    (Layer.labels.find? fun label => ((layers.get? label).getD []).contains routine.id).getD
      Layer.utilities.label

end Routine

namespace Diagram

def startLabel : String := "Start"

def resultLabel : String := "Return result"

def alternativeLabel : String := "Handle alternative"

/-- What is drawn so far. `last` is the node that the next one hangs from, by an edge with the label `pending`;
`places` tells the node of each routine. -/
structure Chain where
  nodes : List Node
  edges : List Edge := []
  last : String
  pending : Option String := none
  places : Table String := []
  deriving DecidableEq, Repr

namespace Chain

def nextId (chain : Chain) : String := nodeId chain.nodes.length

def hang (chain : Chain) (label : String) (style : Style) (shape : Shape) (routineId : Option String) : Chain :=
  let id := chain.nextId
  { nodes := chain.nodes ++ [{ id, label, style, shape, routineId }]
    edges := chain.edges ++ [{ source := chain.last, target := id, label := chain.pending }]
    last := id
    pending := none
    places := routineId.elim chain.places fun routineId => chain.places.put routineId id }

/-- A way out of the last node that leads nowhere else; the chain goes on by its other way. -/
def branch (chain : Chain) : Chain :=
  let id := chain.nextId
  { chain with
    nodes := chain.nodes ++ [{ id, label := alternativeLabel, style := .process }]
    edges := chain.edges ++ [{ source := chain.last, target := id, label := some "No" }]
    pending := some "Yes" }

def hangInitializer (chain : Chain) (routine : Routine) : Chain :=
  chain.hang (Naming.title routine.name) .process .box (some routine.id)

def isServiceLayer (label : String) : Bool :=
  [Layer.services.label, Layer.controllers.label, Layer.models.label].contains label

def decisionLabel (name : String) : String := s!"{Naming.title name}: {Naming.question name}"

def hangStep (layers : Table (List String)) (chain : Chain) (routine : Routine) : Chain :=
  if routine.hasDecisionLogic then
    (chain.hang (decisionLabel routine.name) .decision .diamond (some routine.id)).branch
  else
    let style := if isServiceLayer (routine.primaryLayer layers) then Style.service else Style.process
    chain.hang (Naming.title routine.name) style .box (some routine.id)

def start (entry : Option Routine) : Chain :=
  let id := nodeId 0
  match entry with
  | some routine =>
    { nodes := [{ id, label := Naming.title routine.name, style := .entry, routineId := some routine.id }]
      last := id
      places := [(routine.id, id)] }
  | none => { nodes := [{ id, label := startLabel, style := .entry }], last := id }

end Chain

def entryOf (selected : List Routine) : Option Routine :=
  ((Ranking.rank selected).find? (·.entryPoint)).or selected.head?

def afterEntry (selected : List Routine) : List Routine :=
  match entryOf selected with
  | some entry => (Ranking.rank selected).filter fun routine => routine.id != entry.id
  | none => Ranking.rank selected

def chainOf (selected : List Routine) (layers : Table (List String)) : Chain :=
  let behind := afterEntry selected
  let started := (behind.filter (·.isInitializer)).foldl Chain.hangInitializer (Chain.start (entryOf selected))
  let run := (behind.filter fun routine => !routine.isInitializer).foldl (Chain.hangStep layers) started
  run.hang resultLabel .result .box none

/-- Shorter ids first, those of one length by their letters: the order in which nodes are drawn. -/
def idBefore (a b : String) : Bool :=
  a.length < b.length || (a.length == b.length && Text.before a.toList b.toList)

def insertId (id : String) : List String → List String
  | [] => [id]
  | next :: rest => if idBefore next id then next :: insertId id rest else id :: next :: rest

def sortIds (ids : List String) : List String := ids.foldr insertId []

def subgraphOf? (selected : List Routine) (layers : Table (List String)) (places : Table String)
    (label : String) : Option Subgraph :=
  let members := selected.filter fun routine => routine.primaryLayer layers == label
  if members.length < 2 then none
  else some ⟨label, sortIds (members.filterMap fun routine => places.get? routine.id)⟩

def ofSelection (selected : List Routine) (layers : Table (List String)) : Diagram :=
  let chain := chainOf selected layers
  { nodes := chain.nodes
    edges := chain.edges
    subgraphs := Layer.labels.filterMap (subgraphOf? selected layers chain.places) }

end Diagram

end FlowAtlas
