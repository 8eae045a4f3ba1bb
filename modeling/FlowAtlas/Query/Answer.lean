import FlowAtlas.CallGraph.Report
import FlowAtlas.Query.Basic
import FlowAtlas.Record.Analysis
import FlowAtlas.Record.Report
import FlowAtlas.Surroundings

namespace FlowAtlas

/-- Why a query has no answer. The last two do not happen with configurations and replies of the right form. -/
inductive QueryFault where
  | invalidRoot (path : String)
  | unknownSymbol (symbol : String)
  | selection (fault : SelectionFault)
  | problems (problems : List Fields.Problem)
  deriving DecidableEq, Repr

namespace QueryFault

def status : QueryFault → Nat
  | invalidRoot _ => 400
  | unknownSymbol _ => 404
  | selection _ => 500
  | problems _ => 500

def detail : QueryFault → String
  | invalidRoot path => s!"Invalid root_path: {path}"
  | unknownSymbol symbol => s!"Unknown symbol: {symbol}"
  | selection fault => fault.message
  | problems found => "; ".intercalate (found.filterMap fun problem => problem.fault.message?)

end QueryFault

inductive QueryAnswer where
  | analysis (result : Analysis)
  | drawing (result : Drawing)
  | symbol (report : SymbolReport)
  | paths (report : PathReport)
  deriving DecidableEq, Repr

def QueryAnswer.toJson : QueryAnswer → Json
  | analysis result => result.toJson
  | drawing result => result.toJson
  | symbol report => report.toJson
  | paths report => report.toJson

namespace CallGraph

def single (graph : CallGraph) (symbol : String) : Except QueryFault String :=
  match graph.find symbol with
  | [] => .error (.unknownSymbol symbol)
  | id :: _ => .ok id

def answerSymbol (graph : CallGraph) (symbol : String) (limit : Int) : Except QueryFault SymbolReport :=
  match graph.report? symbol limit with
  | some report => .ok report
  | none => .error (.unknownSymbol symbol)

def answerPaths (graph : CallGraph) (start stop : String) (limit : Int) : Except QueryFault PathReport := do
  let start ← graph.single start
  let stop ← graph.single stop
  .ok (graph.pathReport start stop limit)

end CallGraph

namespace Query

def answerAt (surroundings : Surroundings) (root : String) : Query → Except QueryFault QueryAnswer
  | analysis target => do
    .ok (.analysis (← (surroundings.analysis target.config root).mapError .selection))
  | diagram target augmented => do
    let options := target.config.service
    let options := if augmented then { options with enabled := true } else options
    let analysis ← (surroundings.analysis target.config root).mapError .selection
    let augmentation ← (surroundings.draw options .keeping analysis).toExcept.mapError .problems
    .ok (.drawing augmentation.drawing)
  | callGraph target symbol limit => do
    .ok (.symbol (← (surroundings.graph target.config root).answerSymbol symbol limit))
  | paths target start stop limit => do
    .ok (.paths (← (surroundings.graph target.config root).answerPaths start stop limit))

def answer (surroundings : Surroundings) (current : String) (query : Query) : Except QueryFault QueryAnswer :=
  match surroundings.entries with
  | .ok _ => query.answerAt surroundings (query.root current)
  | .error _ => .error (.invalidRoot (query.root current))

end Query

end FlowAtlas
