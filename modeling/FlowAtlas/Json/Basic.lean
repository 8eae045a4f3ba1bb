import FlowAtlas.Decimal.Binary64

namespace FlowAtlas

inductive Json where
  | null
  | bool (value : Bool)
  | int (value : Int)
  | real (value : Binary64)
  | text (value : String)
  | list (items : List Json)
  | object (fields : List (String × Json))

namespace Json

def field? (fields : List (String × Json)) (name : String) : Option Json :=
  fields.reverse.lookup name

def ofNat (n : Nat) : Json := int n

def ofOption {α : Type} (encode : α → Json) : Option α → Json
  | some a => encode a
  | none => null

def ofList {α : Type} (encode : α → Json) (items : List α) : Json := list (items.map encode)

def texts (items : List String) : Json := ofList text items

end Json

end FlowAtlas
