import FlowAtlas.CommandLine.Command
import FlowAtlas.Json.Writer
import FlowAtlas.Record.Analysis
import FlowAtlas.Record.Report
import FlowAtlas.Surroundings

namespace FlowAtlas.CommandLine

/-- What a run leaves behind. A complaint goes with status 2; a file is still to be written at its path. -/
structure Outcome where
  status : Nat := 0
  output : String := ""
  complaint : Option String := none
  file : Option (String × String) := none
  log : List LogLine := []
  deriving DecidableEq, Repr

def Outcome.refused (complaint : String) : Outcome := { status := 2, complaint := some complaint }

/-- A run that ends without an outcome: a dropped argument is needed, no file can have the name that is given, the
bytes of the configuration are no text, or the analysis itself fails. -/
inductive Breakdown where
  | unusable
  | unnameable
  | undecodable
  | selection (fault : SelectionFault)
  | problems (found : List Fields.Problem)
  deriving DecidableEq, Repr

def Argument.use {α : Type} : Argument α → Except Breakdown α
  | given value => .ok value
  | dropped => .error .unusable

def useOption {α : Type} (option : Option (Argument α)) : Except Breakdown (Option α) := option.mapM Argument.use

def checkName (path : String) : Except Breakdown Unit :=
  if path.toList.contains '\x00' then .error .unnameable else .ok ()

namespace Task

def root? (task : Task) (current : String) : Option String := task.path.given?.map (Path.absolute current)

def configPath? (task : Task) : Option String := (task.config.bind Argument.given?).map Path.simplified

def augmented (task : Task) : Bool :=
  match task.action with
  | .diagram augmented _ => augmented
  | _ => false

def adjust (task : Task) (config : Config) : Except Breakdown Config := do
  let depth ← useOption task.depth
  let config := if task.augmented then { config with service.enabled := true } else config
  .ok { config with maxDepth := depth.getD config.maxDepth }

def readConfig (content : Except PathFault (List UInt8)) : Except Breakdown (Option Config) :=
  match content with
  | .error _ => .ok none
  | .ok bytes =>
    match Config.ofBytes? bytes with
    | none => .error .undecodable
    | some (.valid config) => .ok (some config)
    | some (.invalid _) => .ok none

def resolve (task : Task) (content : Except PathFault (List UInt8)) :
    Except Breakdown (Except String Config) := do
  match ← useOption task.config with
  | none => .ok (.ok (← task.adjust {}))
  | some path =>
    checkName path
    match ← readConfig content with
    | some config => .ok (.ok (← task.adjust config))
    | none => .ok (.error path)

def usualLimit : Int := 5

def deliver (text : String) (log : List LogLine) (output : Option (Argument String)) : Except Breakdown Outcome := do
  match (output.bind Argument.given?).getD "" with
  | "" => .ok { output := text, log }
  | path =>
    checkName path
    .ok { file := some (path, text), log }

def act (surroundings : Surroundings) (config : Config) (root : String) : Action → Except Breakdown Outcome
  | .analyze briefly => do
    let analysis ← (surroundings.analysis config root).mapError .selection
    let text := if briefly then analysis.summary.text else analysis.toJson.indented
    .ok { output := text ++ "\n", log := (surroundings.walk config root).log }
  | .diagram _ output => do
    let analysis ← (surroundings.analysis config root).mapError .selection
    let augmentation ← (surroundings.draw config.service .logging analysis).toExcept.mapError .problems
    let log := (surroundings.walk config root).log ++ augmentation.log
    deliver augmentation.drawing.text log output
  | .callGraph symbol limit => do
    let graph := surroundings.graph config root
    let symbol ← symbol.use
    match graph.find symbol with
    | [] => .ok (.refused s!"unknown symbol: {symbol}")
    | found =>
      let limit ← useOption limit
      let reports := found.map (graph.routineReport (limit.getD usualLimit))
      .ok
        { output := (RoutineReport.allToJson reports).indented ++ "\n"
          log := (surroundings.walk config root).log }

def run (task : Task) (surroundings : Surroundings) (current : String)
    (content : Except PathFault (List UInt8)) : Except Breakdown Outcome := do
  let root := Path.absolute current (← task.path.use)
  match surroundings.entries with
  | .error _ => .ok (.refused s!"not a directory: {root}")
  | .ok _ =>
    match ← task.resolve content with
    | .error path => .ok (.refused s!"invalid config {path}")
    | .ok config => act surroundings config root task.action

end Task

end FlowAtlas.CommandLine
