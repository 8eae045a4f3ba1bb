/-! Reading records field by field. Every problem of a record is reported, not only the first. -/

namespace FlowAtlas.Fields

inductive Step where
  | field (name : String)
  | item (index : Nat)
  deriving DecidableEq, Repr

inductive Fault where
  | missing
  | notText
  | notInteger
  | unreadableInteger
  | fractionalInteger
  | endlessInteger
  | oversizedInteger
  | notBoolean
  | unreadableBoolean
  | notNumber
  | unreadableNumber
  | notList
  | notSet
  | notArray
  | notMap
  | notObject
  | notRecord (name : String)
  | noneOf (choices : List String)
  | notAbove (bound : Int)
  | notAtLeast (bound : Int)
  | notJson
  deriving DecidableEq, Repr

def choicesText : List String → String
  | [] => ""
  | [last] => s!"'{last}'"
  | [first, last] => s!"'{first}' or '{last}'"
  | first :: rest => s!"'{first}', " ++ choicesText rest

namespace Fault

def code : Fault → String
  | missing => "missing"
  | notText => "string_type"
  | notInteger => "int_type"
  | unreadableInteger => "int_parsing"
  | fractionalInteger => "int_from_float"
  | endlessInteger => "finite_number"
  | oversizedInteger => "int_parsing_size"
  | notBoolean => "bool_type"
  | unreadableBoolean => "bool_parsing"
  | notNumber => "float_type"
  | unreadableNumber => "float_parsing"
  | notList => "list_type"
  | notSet | notArray => "set_type"
  | notMap => "dict_type"
  | notObject | notRecord _ => "model_type"
  | noneOf _ => "literal_error"
  | notAbove _ => "greater_than"
  | notAtLeast _ => "greater_than_equal"
  | notJson => "json_invalid"

def message? : Fault → Option String
  | missing => some "Field required"
  | notText => some "Input should be a valid string"
  | notInteger => some "Input should be a valid integer"
  | unreadableInteger => some "Input should be a valid integer, unable to parse string as an integer"
  | fractionalInteger => some "Input should be a valid integer, got a number with a fractional part"
  | endlessInteger => some "Input should be a finite number"
  | oversizedInteger => some "Unable to parse input string as an integer, exceeded maximum size"
  | notBoolean => some "Input should be a valid boolean"
  | unreadableBoolean => some "Input should be a valid boolean, unable to interpret input"
  | notNumber => some "Input should be a valid number"
  | unreadableNumber => some "Input should be a valid number, unable to parse string as a number"
  | notList => some "Input should be a valid list"
  | notSet => some "Input should be a valid set"
  | notArray => some "Input should be a valid array"
  | notMap => some "Input should be a valid dictionary"
  | notObject => some "Input should be an object"
  | notRecord name => some s!"Input should be a valid dictionary or instance of {name}"
  | noneOf choices => some s!"Input should be {choicesText choices}"
  | notAbove bound => some s!"Input should be greater than {bound}"
  | notAtLeast bound => some s!"Input should be greater than or equal to {bound}"
  | notJson => none

end Fault

structure Problem where
  location : List Step
  fault : Fault
  deriving DecidableEq, Repr

/-- A value, or everything that is wrong with what it was read from. -/
inductive Checked (α : Type) where
  | valid (value : α)
  | invalid (problems : List Problem)
  deriving Repr

namespace Checked

variable {α β : Type}

def fail (fault : Fault) : Checked α := invalid [⟨[], fault⟩]

def map (f : α → β) : Checked α → Checked β
  | valid a => valid (f a)
  | invalid problems => invalid problems

/-- Both readings, with the problems of the first before those of the second. -/
def apply (f : Checked (α → β)) (a : Unit → Checked α) : Checked β :=
  match f, a () with
  | valid f, valid a => valid (f a)
  | valid _, invalid problems => invalid problems
  | invalid problems, valid _ => invalid problems
  | invalid first, invalid second => invalid (first ++ second)

instance : Applicative Checked where
  pure := valid
  seq := apply
  map := map

def andThen (a : Checked α) (f : α → Checked β) : Checked β :=
  match a with
  | valid a => f a
  | invalid problems => invalid problems

def under (step : Step) : Checked α → Checked α
  | valid a => valid a
  | invalid problems => invalid (problems.map fun problem => { problem with location := step :: problem.location })

def toExcept : Checked α → Except (List Problem) α
  | valid a => .ok a
  | invalid problems => .error problems

end Checked

end FlowAtlas.Fields
