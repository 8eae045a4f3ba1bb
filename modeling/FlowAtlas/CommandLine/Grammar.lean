import FlowAtlas.Text.Integer
import FlowAtlas.Text.Quoted

/-! What may stand on a command line, and how each argument is understood by itself. -/

namespace FlowAtlas.CommandLine

inductive OptionKind where
  | help
  | switch
  | text
  | integer
  deriving DecidableEq, Repr

structure Flag where
  names : List String
  kind : OptionKind
  deriving DecidableEq, Repr

namespace Flag

def label (flag : Flag) : String := "/".intercalate flag.names

def takesValue (flag : Flag) : Bool := flag.kind == .text || flag.kind == .integer

def help : Flag := ⟨["-h", "--help"], .help⟩

end Flag

/-- The options and the arguments that must be there. Where a command is expected, it takes all that follows. -/
structure Grammar where
  flags : List Flag
  required : List String := []
  command : Option String := none
  deriving DecidableEq, Repr

inductive Complaint where
  | missing (names : List String)
  | unrecognized (arguments : List String)
  | unknownCommand (argument value : String) (commands : List String)
  | ambiguous (argument : String) (names : List String)
  | noValue (flag : Flag)
  | needlessValue (flag : Flag) (value : String)
  | notInteger (flag : Flag) (value : String)
  deriving DecidableEq, Repr

namespace Complaint

def message : Complaint → String
  | missing names =>
    let listed := ", ".intercalate names
    s!"the following arguments are required: {listed}"
  | unrecognized arguments =>
    let listed := " ".intercalate arguments
    s!"unrecognized arguments: {listed}"
  | unknownCommand argument value commands =>
    let choices := ", ".intercalate (commands.map Text.quoted)
    s!"argument {argument}: invalid choice: {Text.quoted value} (choose from {choices})"
  | ambiguous argument names =>
    let listed := ", ".intercalate names
    s!"ambiguous option: {argument} could match {listed}"
  | noValue flag => s!"argument {flag.label}: expected one argument"
  | needlessValue flag value => s!"argument {flag.label}: ignored explicit argument {Text.quoted value}"
  | notInteger flag value => s!"argument {flag.label}: invalid int value: {Text.quoted value}"

end Complaint

inductive Interruption where
  | help
  | complaint (complaint : Complaint)
  deriving DecidableEq, Repr

/-- A name under which an option is written, and the value that is written with it, behind an equals sign or
directly. -/
structure Mention where
  flag : Flag
  name : String
  value : Option String := none
  deriving DecidableEq, Repr

/-- An argument as it stands. Behind a separator every argument is plain. -/
inductive Token where
  | plain (text : String)
  | separator
  | mention (text : String) (mention : Mention)
  | unknown (text : String)
  deriving DecidableEq, Repr

def Token.text : Token → String
  | plain text => text
  | separator => "--"
  | mention text _ => text
  | unknown text => text

namespace Grammar

def names (grammar : Grammar) : List (String × Flag) :=
  grammar.flags.flatMap fun flag => flag.names.map fun name => (name, flag)

def splitValue (argument : String) : String × Option String :=
  match Text.cutAt ['='] argument.toList with
  | some (name, value) => (String.ofList name, some (String.ofList value))
  | none => (argument, none)

def longCandidates (grammar : Grammar) (argument : String) : List Mention :=
  let (start, value) := splitValue argument
  (grammar.names.filter fun entry => Text.startsWith entry.1.toList start).map fun entry =>
    ⟨entry.2, entry.1, value⟩

def shortCandidates (grammar : Grammar) (argument : String) : List Mention :=
  let name := String.ofList (argument.toList.take 2)
  let value := String.ofList (argument.toList.drop 2)
  grammar.names.filterMap fun entry =>
    if entry.1 == name then some ⟨entry.2, entry.1, some value⟩
    else if Text.startsWith entry.1.toList argument then some { flag := entry.2, name := entry.1 }
    else none

def candidates (grammar : Grammar) (argument : String) : List Mention :=
  if Text.startsWith argument.toList "--" then grammar.longCandidates argument
  else grammar.shortCandidates argument

/-- Digits behind a sign, with or without a point; a line feed may follow. -/
def isNegativeNumber (argument : String) : Bool :=
  let chars := argument.toList
  let body := (if chars.getLast? == some '\n' then chars.dropLast else chars).drop 1
  let fraction := body.dropWhile Text.isDigit
  match fraction with
  | [] => !body.isEmpty
  | '.' :: digits => !digits.isEmpty && digits.all Text.isDigit
  | _ => false

def inFull? (grammar : Grammar) (argument : String) : Option Mention :=
  match grammar.names.lookup argument with
  | some flag => some { flag, name := argument }
  | none =>
    match splitValue argument with
    | (name, some value) => (grammar.names.lookup name).map fun flag => ⟨flag, name, some value⟩
    | (_, none) => none

/-- How an argument in front of the separator is understood. -/
def token (grammar : Grammar) (argument : String) : Except Complaint Token :=
  if !Text.startsWith argument.toList "-" || argument.length == 1 then .ok (.plain argument)
  else match grammar.inFull? argument with
    | some found => .ok (.mention argument found)
    | none =>
      match grammar.candidates argument with
      | [found] => .ok (.mention argument found)
      | [] =>
        if isNegativeNumber argument || argument.toList.contains ' ' then .ok (.plain argument)
        else .ok (.unknown argument)
      | several => .error (.ambiguous argument (several.map (·.name)))

def tokens (grammar : Grammar) : List String → Except Complaint (List Token)
  | [] => .ok []
  | argument :: rest =>
    if argument == "--" then .ok (.separator :: rest.map Token.plain)
    else do
      let first ← grammar.token argument
      .ok (first :: (← grammar.tokens rest))

end Grammar

end FlowAtlas.CommandLine
