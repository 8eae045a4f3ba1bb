import FlowAtlas.CommandLine.Grammar

/-! Taking the arguments of a command line one after the other. -/

namespace FlowAtlas.CommandLine

/-- What is given for an argument or an option. A text that looks like a separator is dropped, unless a separator
stands beside it that can be dropped in its place. -/
inductive Argument (α : Type) where
  | given (value : α)
  | dropped
  deriving DecidableEq, Repr

namespace Argument

def ofText (text : String) : Argument String := if text == "--" then .dropped else .given text

def given? {α : Type} : Argument α → Option α
  | given value => some value
  | dropped => none

def integer? : Argument String → Option (Argument Int)
  | given text => (Text.integer? text.toList).map given
  | dropped => some dropped

end Argument

structure Parsed where
  settings : List (String × Argument String) := []
  positional : List (Argument String) := []
  rest : List String := []
  leftover : List String := []
  deriving DecidableEq, Repr

namespace Parsed

def setting? (parsed : Parsed) (name : String) : Option (Argument String) := parsed.settings.reverse.lookup name

def number? (parsed : Parsed) (name : String) : Option (Argument Int) :=
  (parsed.setting? name).bind Argument.integer?

def isSet (parsed : Parsed) (name : String) : Bool := (parsed.setting? name).isSome

end Parsed

namespace Flag

def key (flag : Flag) : String := flag.names.head?.getD ""

def apply (flag : Flag) (value : String) : Except Interruption (String × Argument String) :=
  let argument := Argument.ofText value
  match flag.kind with
  | .help => .error .help
  | .switch | .text => .ok (flag.key, argument)
  | .integer =>
    if argument.integer?.isSome then .ok (flag.key, argument)
    else .error (.complaint (.notInteger flag value))

end Flag

structure Uses where
  complete : List (Flag × String) := []
  lacking : Option Flag := none
  deriving DecidableEq, Repr

namespace Uses

def alone (flag : Flag) : Uses :=
  if flag.takesValue then { lacking := some flag } else { complete := [(flag, "")] }

def behind (flag : Flag) (uses : Uses) : Uses := { uses with complete := (flag, "") :: uses.complete }

end Uses

namespace Grammar

/-- The options that a name and what is attached to it stand for. Short switches may be written together: behind
one comes the letter of the next. -/
def attached (grammar : Grammar) : Flag → String → List Char → Except Complaint Uses
  | flag, _, [] => if flag.takesValue then .ok { complete := [(flag, "")] } else .error (.needlessValue flag "")
  | flag, name, c :: rest =>
    let value := String.ofList (c :: rest)
    let nextName := String.ofList ['-', c]
    if flag.takesValue then .ok { complete := [(flag, value)] }
    else if Text.startsWith name.toList "--" then .error (.needlessValue flag value)
    else match grammar.names.lookup nextName, rest with
      | none, _ => .error (.needlessValue flag value)
      | some next, [] => .ok ((Uses.alone next).behind flag)
      | some next, d :: rest => (grammar.attached next nextName (d :: rest)).map (·.behind flag)

def take (grammar : Grammar) (mention : Mention) (rest : List Token) : Except Complaint (Uses × List Token) := do
  let uses ← match mention.value with
    | some value => grammar.attached mention.flag mention.name value.toList
    | none => .ok (.alone mention.flag)
  match uses.lacking, rest with
  | none, _ => .ok (uses, rest)
  | some flag, .plain text :: rest => .ok ({ uses with complete := uses.complete ++ [(flag, text)] }, rest)
  | some flag, _ => .error (.noValue flag)

/-- What becomes of the tokens. `waiting` names the arguments that are still required; `steps` is more than the
number of tokens. -/
def consume (grammar : Grammar) : Nat → List String → Parsed → List Token → Except Interruption Parsed
  | 0, _, parsed, _ => .ok parsed
  | _ + 1, [], parsed, [] => .ok parsed
  | _ + 1, waiting, _, [] => .error (.complaint (.missing waiting))
  | steps + 1, waiting, parsed, .unknown text :: tokens =>
    grammar.consume steps waiting { parsed with leftover := parsed.leftover ++ [text] } tokens
  | steps + 1, waiting, parsed, .mention _ mention :: tokens => do
    let (uses, tokens) ← (grammar.take mention tokens).mapError .complaint
    let settings ← uses.complete.mapM fun (flag, value) => flag.apply value
    grammar.consume steps waiting { parsed with settings := parsed.settings ++ settings } tokens
  | steps + 1, [], parsed, token :: tokens =>
    grammar.consume steps [] { parsed with leftover := parsed.leftover ++ [token.text] } tokens
  | steps + 1, _ :: waiting, parsed, .plain text :: tokens =>
    if grammar.command.isSome then .ok { parsed with rest := text :: tokens.map Token.text }
    else match tokens with
      | .separator :: tokens =>
        grammar.consume steps waiting { parsed with positional := parsed.positional ++ [.given text] } tokens
      | tokens =>
        grammar.consume steps waiting { parsed with positional := parsed.positional ++ [.ofText text] } tokens
  | steps + 1, name :: waiting, parsed, .separator :: tokens =>
    match tokens with
    | .plain text :: tokens =>
      if grammar.command.isSome then .ok { parsed with rest := "--" :: text :: tokens.map Token.text }
      else grammar.consume steps waiting { parsed with positional := parsed.positional ++ [.given text] } tokens
    | _ => .error (.complaint (.missing (name :: waiting)))

def parse (grammar : Grammar) (arguments : List String) : Except Interruption Parsed := do
  let tokens ← (grammar.tokens arguments).mapError .complaint
  grammar.consume (tokens.length + 1) (grammar.required ++ grammar.command.toList) {} tokens

end Grammar

end FlowAtlas.CommandLine
