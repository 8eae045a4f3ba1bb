import FlowAtlas.CallGraph.Report
import FlowAtlas.Record.Source

namespace FlowAtlas

def Reached.toJson (reached : Reached) : Json :=
  .object [("id", .text reached.routine.id), ("name", .text reached.routine.name),
    ("file", .text reached.routine.file), ("depth", .ofNat reached.depth),
    ("importance", .int reached.routine.importance)]

def Reached.briefJson (reached : Reached) : Json :=
  .object [("id", .text reached.routine.id), ("depth", .ofNat reached.depth),
    ("importance", .int reached.routine.importance)]

def SymbolReport.toJson (report : SymbolReport) : Json :=
  let edgeJson := fun (edge : CallEdge) =>
    Json.object [("source", .text edge.callerId), ("target", .text edge.calleeId)]
  .object [("symbol", .text report.symbol), ("matches", .texts report.found),
    ("callers", .ofTable .texts report.callers), ("reachable", .ofList Reached.toJson report.reached),
    ("edges", .ofList edgeJson report.edges)]

def RoutineReport.toJson (report : RoutineReport) : Json :=
  .object [("callers", .texts report.callers), ("reachable", .ofList Reached.briefJson report.reached)]

def RoutineReport.allToJson (reports : List RoutineReport) : Json :=
  .object (reports.map fun report => (report.id, report.toJson))

def PathReport.toJson (report : PathReport) : Json :=
  .object [("start", .text report.start), ("end", .text report.stop), ("paths", .ofList .texts report.paths),
    ("path_count", .ofNat report.paths.length), ("max_depth", .int report.limit)]

end FlowAtlas
