import FlowAtlas.Text.Case
import FlowAtlas.Text.Quoted

namespace FlowAtlas

inductive Severity where
  | warning
  | error
  deriving DecidableEq, Repr

def Severity.label : Severity → String
  | warning => "WARNING"
  | error => "ERROR"

structure LogLine where
  severity : Severity
  text : String
  deriving DecidableEq, Repr

namespace LogLine

def warning (text : String) : LogLine := ⟨.warning, text⟩

def written (line : LogLine) : String := s!"{line.severity.label}: {line.text}"

end LogLine

namespace LogLevel

def named : List (String × Nat) :=
  [("CRITICAL", 50), ("FATAL", 50), ("ERROR", 40), ("WARNING", 30), ("WARN", 30), ("INFO", 20), ("DEBUG", 10),
   ("NOTSET", 0)]

def usual : Nat := 20

inductive Fault where
  | layout (text : String)
  | notLevel
  deriving DecidableEq, Repr

def Fault.message? : Fault → Option String
  | layout text => some s!"Unknown level: {Text.quoted text}"
  | notLevel => none

def reserved : List (String × Fault) :=
  [("BASIC_FORMAT", .layout "%(levelname)s:%(name)s:%(message)s"), ("_STYLES", .notLevel)]

/-- The level that a word in any case names; other words and no word name the usual one. -/
def ofName (name : Option String) : Except Fault Nat :=
  match name with
  | none => .ok usual
  | some name =>
    let word := String.ofList (Text.upper name.toList)
    match reserved.lookup word with
    | some fault => .error fault
    | none => .ok ((named.lookup word).getD usual)

end LogLevel

end FlowAtlas
