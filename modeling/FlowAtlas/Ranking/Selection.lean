import FlowAtlas.Ranking.Importance
import FlowAtlas.Table

/-! Choosing the routines worth drawing: the most important ones, then one for each layer that is missing, then
the rest of the ranking, up to a cap. -/

namespace FlowAtlas

inductive SelectionFault where
  | overCap (count : Nat) (cap : Int)
  | repeated
  deriving DecidableEq, Repr

def SelectionFault.message : SelectionFault → String
  | overCap count cap => s!"selected {count} functions, cap is {cap}"
  | repeated => "selection contains duplicate function ids"

namespace Selection

def defaultCap : Int := 12

def primaryCount : Int := 8

/-- The first items; a negative count leaves out as many at the end. -/
def takeCount {α : Type} (count : Int) (items : List α) : List α :=
  items.take (if 0 ≤ count then count.toNat else items.length - count.natAbs)

def has (selected : List Routine) (id : String) : Bool := selected.any fun routine => routine.id == id

def take (selected : List Routine) (routine : Routine) : List Routine :=
  if has selected routine.id then selected else selected ++ [routine]

/-- The routine that an id stands for; of several with one id, the last. -/
def byId? (routines : List Routine) (id : String) : Option Routine :=
  routines.reverse.find? fun routine => routine.id == id

def rankOf (ranked : List Routine) (id : String) : Nat :=
  ranked.length - ranked.reverse.findIdx fun routine => routine.id == id

def best? (ranked : List Routine) : List Routine → Option Routine
  | [] => none
  | routine :: rest =>
    match best? ranked rest with
    | none => some routine
    | some other =>
      if rankOf ranked routine.id ≤ rankOf ranked other.id then some routine else some other

/-- Each layer without a routine among those chosen adds its best ranked member while there is room. `covered`
holds the layers of the chosen routines. -/
def backfill (routines ranked : List Routine) (cap : Int) :
    Table (List String) → List Routine → List String → List Routine
  | [], selected, _ => selected
  | (label, memberIds) :: layers, selected, covered =>
    if cap ≤ selected.length then selected
    else if covered.contains label then backfill routines ranked cap layers selected covered
    else
      let known := memberIds.filterMap fun id => if has selected id then none else byId? routines id
      match best? ranked known with
      | none => backfill routines ranked cap layers selected covered
      | some routine =>
        backfill routines ranked cap layers (take selected routine) (covered ++ routine.layers)

def fill (limit : Int) : List Routine → List Routine → List Routine
  | [], selected => selected
  | routine :: rest, selected =>
    if limit ≤ selected.length then selected else fill limit rest (take selected routine)

def gather (routines : List Routine) (layers : Table (List String)) (cap : Int) : List Routine :=
  let ranked := Ranking.rank routines
  let primary := (takeCount (min primaryCount cap) ranked).foldl take []
  let selected := backfill routines ranked cap layers primary (primary.flatMap (·.layers))
  fill (min cap ranked.length) ranked selected

/-- The different ids of a selection. -/
def chosen (selected : List Routine) : List String := (selected.map (·.id)).eraseDups

end Selection

open Selection

def select (routines : List Routine) (layers : Table (List String)) (cap : Int) :
    Except SelectionFault (List Routine) :=
  let selected := gather routines layers cap
  if cap < selected.length then .error (.overCap selected.length cap)
  else if selected.length ≠ (chosen selected).length then .error .repeated
  else .ok selected

end FlowAtlas
