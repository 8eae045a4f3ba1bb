import FlowAtlas.Analysis.Basic
import FlowAtlas.Record.Diagram
import FlowAtlas.Record.Summary

namespace FlowAtlas

def Analysis.toJson (analysis : Analysis) : Json :=
  .object [("root", .text analysis.root), ("files", .ofList SourceFile.toJson analysis.files),
    ("classes", .ofList ClassDecl.toJson analysis.classes),
    ("functions", .ofList Routine.toJson analysis.routines),
    ("imports", .ofList ImportRef.toJson analysis.imports),
    ("decision_points", .ofList Decision.toJson analysis.decisions),
    ("call_edges", .ofList CallEdge.toJson analysis.edges), ("layers", .ofTable .texts analysis.layers),
    ("selected", .ofList Routine.toJson analysis.selected), ("diagram", analysis.diagram.toJson),
    ("diagram_text", .text analysis.diagramText), ("summary", analysis.summary.toJson)]

end FlowAtlas
