import FlowAtlas.Fields.Scalar

namespace FlowAtlas.Fields

open Checked

variable {α : Type}

abbrev Entries := List (String × Json)

def required (name : String) (read : Json → Checked α) (fields : Entries) : Checked α :=
  match Json.field? fields name with
  | some value => (read value).under (.field name)
  | none => (fail .missing).under (.field name)

def optional (name : String) (absent : α) (read : Json → Checked α) (fields : Entries) : Checked α :=
  match Json.field? fields name with
  | some value => (read value).under (.field name)
  | none => valid absent

/-- A field with two names, of which the first counts where both are present. -/
def optionalEither (preferred other : String) (absent : α) (read : Json → Checked α) (fields : Entries) :
    Checked α :=
  match Json.field? fields preferred with
  | some value => (read value).under (.field preferred)
  | none => optional other absent read fields

def readEach (read : Json → Checked α) : Nat → List Json → Checked (List α)
  | _, [] => valid []
  | index, item :: items =>
    (· :: ·) <$> (read item).under (.item index) <*> readEach read (index + 1) items

def readList (read : Json → Checked α) : Json → Checked (List α)
  | .list items => readEach read 0 items
  | _ => fail .notList

def readEntries (read : Json → Checked α) : Entries → Checked (List (String × α))
  | [] => valid []
  | (name, value) :: entries =>
    (fun a rest => (name, a) :: rest) <$> (read value).under (.field name) <*> readEntries read entries

def readMap (read : Json → Checked α) : Json → Checked (List (String × α))
  | .object entries => readEntries read entries
  | _ => fail .notMap

def readRecord (name : String) (read : Entries → Checked α) : Json → Checked α
  | .object fields => read fields
  | _ => fail (.notRecord name)

end FlowAtlas.Fields
