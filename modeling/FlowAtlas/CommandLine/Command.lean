import FlowAtlas.CommandLine.Parsing

namespace FlowAtlas.CommandLine

inductive Action where
  | analyze (briefly : Bool)
  | diagram (augmented : Bool) (output : Option (Argument String))
  | callGraph (symbol : Argument String) (limit : Option (Argument Int))
  deriving DecidableEq, Repr

structure Task where
  path : Argument String
  config : Option (Argument String) := none
  depth : Option (Argument Int) := none
  action : Action
  deriving DecidableEq, Repr

inductive Command where
  | task (task : Task)
  | serve
  deriving DecidableEq, Repr

inductive CommandName where
  | analyze
  | diagram
  | callGraph
  | serve
  deriving DecidableEq, Repr

namespace CommandName

def all : List CommandName := [analyze, diagram, callGraph, serve]

def label : CommandName → String
  | analyze => "analyze"
  | diagram => "diagram"
  | callGraph => "callgraph"
  | serve => "serve"

def taskFlags : List Flag := [⟨["--config"], .text⟩, ⟨["--max-depth"], .integer⟩]

def grammar : CommandName → Grammar
  | analyze => { flags := [.help, ⟨["--summary"], .switch⟩] ++ taskFlags, required := ["path"] }
  | diagram =>
    { flags := [.help, ⟨["--augment"], .switch⟩, ⟨["--output", "-o"], .text⟩] ++ taskFlags
      required := ["path"] }
  | callGraph =>
    { flags := [.help, ⟨["--depth"], .integer⟩] ++ taskFlags, required := ["path", "symbol"] }
  | serve => { flags := [.help, ⟨["--host"], .text⟩, ⟨["--port"], .integer⟩, ⟨["--reload"], .switch⟩] }

def taskOf (parsed : Parsed) (action : Action) : Command :=
  .task
    { path := parsed.positional[0]?.getD .dropped
      config := parsed.setting? "--config"
      depth := parsed.number? "--max-depth"
      action }

def command (parsed : Parsed) : CommandName → Command
  | analyze => taskOf parsed (.analyze (parsed.isSet "--summary"))
  | diagram => taskOf parsed (.diagram (parsed.isSet "--augment") (parsed.setting? "--output"))
  | callGraph => taskOf parsed (.callGraph (parsed.positional[1]?.getD .dropped) (parsed.number? "--depth"))
  | serve => .serve

end CommandName

namespace Command

def grammar : Grammar := { flags := [.help], command := some "cmd" }

def nameOf (argument : String) : Except Interruption CommandName :=
  match CommandName.all.find? fun name => name.label == argument with
  | some name => .ok name
  | none => .error (.complaint (.unknownCommand "cmd" argument (CommandName.all.map CommandName.label)))

def ofArguments (arguments : List String) : Except Interruption Command := do
  let outer ← grammar.parse arguments
  match outer.rest with
  | [] => .error (.complaint (.missing grammar.command.toList))
  | argument :: rest =>
    let name ← nameOf argument
    let inner ← name.grammar.parse rest
    match outer.leftover ++ inner.leftover with
    | [] => .ok (name.command inner)
    | leftover => .error (.complaint (.unrecognized leftover))

end Command

end FlowAtlas.CommandLine
