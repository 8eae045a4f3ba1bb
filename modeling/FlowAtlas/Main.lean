import FlowAtlas.CommandLine.Running

/-! The program. It reads its arguments and the directory and configuration file that they name, and shows the
outcome. -/

namespace FlowAtlas.CommandLine

def usage : String :=
  "usage: analyze [--summary] path\n       diagram [--augment] [--output FILE] path\n" ++
    "       callgraph [--depth N] path symbol\noptions of each: --config FILE, --max-depth N\n"

def faultOf : IO.Error → PathFault
  | .inappropriateType _ _ _ => .notDirectory
  | _ => .missing

def attempt {α : Type} (action : IO α) : IO (Except PathFault α) := do
  try
    let value ← action
    return .ok value
  catch error => return .error (faultOf error)

def fileAt (path name : String) : IO Tree := do
  if (Dialect.ofFileName? name).isNone then return .file name (.ok [])
  let content ← attempt (IO.FS.readBinFile path)
  return .file name (content.map fun bytes => bytes.toList)

def reasonOf : IO.Error → String
  | .permissionDenied _ _ _ => "Permission denied"
  | error => (faultOf error).reason

/-- The entries of a directory by name, down to a number of levels. Ignored directories are left empty. -/
def entriesAt (config : Config) : Nat → String → IO (List Tree)
  | 0, _ => return []
  | levels + 1, path => do
    let found := (← (← IO.currentDir) / path |>.readDir).toList
    (Text.sortBy (·.fileName) found).mapM fun entry => do
      let name := entry.fileName
      let inside ← entry.path.isDir
      let linked := (← entry.path.symlinkMetadata).type == .symlink
      if !inside then fileAt (Path.join path name) name
      else if linked then return .linked name
      else if config.ignores name then return .directory name []
      else
        try
          let entries ← entriesAt config levels (Path.join path name)
          return .directory name entries
        catch error => return .closed name (reasonOf error)

def now : IO Timestamp := do
  let (_, path) ← IO.FS.createTempFile
  let made := (← path.metadata).modified
  IO.FS.removeFile path
  return .ofUnixTime made.sec.toNat (made.nsec.toNat / 1000)

def environment : IO (List (String × String)) :=
  ["ARCHFLOW_API_KEY", "ANTHROPIC_API_KEY", "ARCHFLOW_LOG_LEVEL"].filterMapM fun name => do
    return (← IO.getEnv name).map fun value => (name, value)

def unsent (_ : Request) : Except Failure Reply :=
  .error { cause := .noReply, text := "no connection to the service" }

def Severity.rank : Severity → Nat
  | .warning => 30
  | .error => 40

def wanted (environment : List (String × String)) (log : List LogLine) : List LogLine :=
  match LogLevel.ofName (environment.lookup "ARCHFLOW_LOG_LEVEL") with
  | .ok level => log.filter fun line => level ≤ Severity.rank line.severity
  | .error _ => log

def complain (complaint : String) (status : UInt32) : IO UInt32 := do
  IO.eprintln s!"error: {complaint}"
  return status

def Breakdown.text : Breakdown → String
  | unusable => "an argument has no value"
  | unnameable => "a path has a NUL in it"
  | undecodable => "the configuration is not written in UTF-8"
  | selection fault => fault.message
  | problems found => "; ".intercalate (found.filterMap fun problem => problem.fault.message?)

def finish (environment : List (String × String)) (outcome : Outcome) : IO UInt32 := do
  for line in wanted environment outcome.log do
    IO.eprintln line.written
  match outcome.complaint, outcome.file with
  | some complaint, _ => complain complaint outcome.status.toUInt32
  | none, some (path, text) =>
    IO.FS.writeFile path text
    return 0
  | none, none =>
    IO.print outcome.output
    return 0

def runTask (task : Task) : IO UInt32 := do
  let current := toString (← IO.currentDir)
  let environment ← environment
  let content ← attempt (IO.FS.readBinFile (task.configPath?.getD ""))
  let content := content.map fun bytes => bytes.toList
  let config := match task.resolve content with
    | .ok (.ok config) => config
    | _ => {}
  let entries ← attempt (entriesAt config (config.maxDepth.toNat + 2) ((task.root? current).getD ""))
  let surroundings : Surroundings := { entries, moment := ← now, environment, send := unsent }
  match task.run surroundings current content with
  | .ok outcome => finish environment outcome
  | .error breakdown => complain breakdown.text 1

end FlowAtlas.CommandLine

open FlowAtlas.CommandLine
def main (arguments : List String) : IO UInt32 :=
  match Command.ofArguments arguments with
  | .ok (.task task) => runTask task
  | .ok .serve => complain "there is no server to run" 2
  | .error .help => do
    IO.print usage
    return 0
  | .error (.complaint complaint) => complain complaint.message 2
