namespace FlowAtlas

abbrev Table (α : Type) := List (String × α)

namespace Table

variable {α : Type}

def keys (table : Table α) : List String := table.map (·.1)

def has (table : Table α) (key : String) : Bool := table.any fun entry => entry.1 == key

def get? (table : Table α) (key : String) : Option α := table.lookup key

/-- A new key goes to the end; a key that is there keeps its place and takes the new value. -/
def put (key : String) (value : α) : Table α → Table α
  | [] => [(key, value)]
  | entry :: rest => if entry.1 == key then (key, value) :: rest else entry :: put key value rest

/-- A key that is there keeps its value. -/
def putNew (key : String) (value : α) (table : Table α) : Table α :=
  if table.has key then table else table ++ [(key, value)]

def adjust (key : String) (change : α → α) (table : Table α) : Table α :=
  table.map fun entry => if entry.1 == key then (entry.1, change entry.2) else entry

def ofEntries (entries : List (String × α)) : Table α :=
  entries.foldl (fun table entry => table.put entry.1 entry.2) []

end Table

end FlowAtlas
