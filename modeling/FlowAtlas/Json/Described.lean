import FlowAtlas.Decimal.Shortest
import FlowAtlas.Json.Basic
import FlowAtlas.Table
import FlowAtlas.Text.Quoted

/-! Values in the words of a message. A text stands for itself; inside a list or an object it is quoted. -/

namespace FlowAtlas.Json

def kindName : Json → String
  | null => "NoneType"
  | bool _ => "bool"
  | int _ => "int"
  | real _ => "float"
  | text _ => "str"
  | list _ => "list"
  | object _ => "dict"

def isVoid : Json → Bool
  | null => true
  | bool value => !value
  | int value => value == 0
  | real value => value.toInt? == some 0
  | text value => value.isEmpty
  | list items => items.isEmpty
  | object fields => fields.isEmpty

mutual

def shown : Json → String
  | null => "None"
  | bool value => if value then "True" else "False"
  | int value => toString value
  | real value => String.ofList value.show
  | text value => Text.quoted value
  | list items => "[" ++ ", ".intercalate (shownItems items) ++ "]"
  | object fields =>
    let entries := Table.ofEntries (shownFields fields)
    "\x7b" ++ ", ".intercalate (entries.map fun entry => Text.quoted entry.1 ++ ": " ++ entry.2) ++ "\x7d"

def shownItems : List Json → List String
  | [] => []
  | item :: items => shown item :: shownItems items

def shownFields : List (String × Json) → List (String × String)
  | [] => []
  | (name, value) :: fields => (name, shown value) :: shownFields fields

end

def described : Json → String
  | text value => value
  | value => shown value

end FlowAtlas.Json
