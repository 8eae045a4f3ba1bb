import FlowAtlas.Extraction.Findings

namespace FlowAtlas.Extraction

/-- A class, or a routine with the owner that its declaration names. -/
inductive Declaration where
  | classBody (name : String) (exported : Bool)
  | routine (name : String) (kind : RoutineKind) (isAsync exported : Bool) (receiver : Option String)
  deriving DecidableEq, Repr

def Findings.declare (findings : Findings) (declaration : Declaration) (line depth : Nat) : Findings :=
  match declaration with
  | .classBody name exported => findings.openClass name line depth exported
  | .routine name kind isAsync exported receiver =>
    findings.openRoutine name line depth kind isAsync exported receiver

def Findings.declareIf (findings : Findings) (declared : Option (Declaration × List Char)) (line depth : Nat) :
    Findings :=
  declared.elim findings fun (declaration, _) => findings.declare declaration line depth

def callText (declared : Option (Declaration × List Char)) (code : List Char) : List Char :=
  declared.elim code (·.2)

end FlowAtlas.Extraction
