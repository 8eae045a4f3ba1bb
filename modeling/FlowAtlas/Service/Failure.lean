import FlowAtlas.Json.Described
import FlowAtlas.Json.Reader
import FlowAtlas.Text.Case
import FlowAtlas.Text.Pieces

namespace FlowAtlas

inductive BodyFault where
  | noFields (kind : String)
  | noItems (kind : String)
  | notText (place : Nat) (kind : String)
  | notJson (fault : Json.Fault) (reason : String)
  deriving DecidableEq, Repr

def BodyFault.message : BodyFault → String
  | noFields kind => s!"'{kind}' object has no attribute 'get'"
  | noItems kind => s!"'{kind}' object is not iterable"
  | notText place kind => s!"sequence item {place}: expected str instance, {kind} found"
  | notJson _ reason => reason

/-- Whether the service itself said no, its reply cannot be read, or there was none. -/
inductive FailureCause where
  | refusal
  | body (fault : BodyFault)
  | noReply
  deriving DecidableEq, Repr

structure Failure where
  cause : FailureCause
  text : String
  status : Json := .null
  category : Json := .null

namespace Failure

def ofBody (fault : BodyFault) : Failure := { cause := .body fault, text := fault.message }

def noKey : Failure :=
  { cause := .refusal, text := "no API key configured for diagram generation", status := .int 401 }

def noText (status : Int) : Failure :=
  { cause := .refusal, text := "response contained no text content", status := .int status }

def noFlowchart : Failure := { cause := .refusal, text := "response did not contain a flowchart" }

def endlessWait : Failure := { cause := .noReply, text := "int too large to convert to float" }

def hasStatus (failure : Failure) (code : Int) : Bool :=
  match failure.status with
  | .int status => status == code
  | .real status => status.toInt? == some code
  | _ => false

def words (failure : Failure) : List Char :=
  let category := if failure.category.isVoid then "" else failure.category.described
  Text.lower (category ++ " " ++ failure.text).toList

def speaksOf (failure : Failure) (terms : List String) : Bool :=
  terms.any fun term => Text.contains term.toList failure.words

end Failure

end FlowAtlas
