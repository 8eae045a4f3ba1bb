import FlowAtlas.Analysis.Summary
import FlowAtlas.Record.Source

namespace FlowAtlas

open Fields

namespace Brief

def toJson (brief : Brief) : Json :=
  .object [("id", .text brief.id), ("name", .text brief.name), ("file", .text brief.file),
    ("layer", .ofOption .text brief.layer), ("importance", .int brief.importance),
    ("kind", .text brief.kind.label), ("is_entry_point", .bool brief.entryPoint)]

def ofJson : Json → Checked Brief :=
  readRecord "FunctionBrief" fun fields =>
    Brief.mk <$> required "id" readText fields <*> required "name" readText fields <*>
      required "file" readText fields <*> optional "layer" none (readOptional readText) fields <*>
      optional "importance" 0 readInteger fields <*>
      optional "kind" .function (readChoice RoutineKind.all RoutineKind.label) fields <*>
      optional "is_entry_point" false readBoolean fields

end Brief

namespace Summary

def toJson (summary : Summary) : Json :=
  .object [("root", .text summary.root), ("analyzed_at", .text summary.moment), ("total_files", .int summary.files),
    ("total_functions", .int summary.routines), ("total_classes", .int summary.classes),
    ("total_imports", .int summary.imports), ("total_decision_points", .int summary.decisions),
    ("layer_counts", .ofTable .int summary.layerCounts),
    ("important_functions", .ofList Brief.toJson summary.important),
    ("decision_highlights", .texts summary.highlights), ("stats", summary.stats.toJson)]

def ofJson : Json → Checked Summary :=
  readRecord "AnalysisSummary" fun fields =>
    Summary.mk <$> required "root" readText fields <*> required "analyzed_at" readText fields <*>
      required "total_files" readInteger fields <*> required "total_functions" readInteger fields <*>
      required "total_classes" readInteger fields <*> required "total_imports" readInteger fields <*>
      required "total_decision_points" readInteger fields <*>
      required "layer_counts" (readMap readInteger) fields <*>
      required "important_functions" (readList Brief.ofJson) fields <*>
      optional "decision_highlights" [] (readList readText) fields <*>
      optional "stats" {} TreeStats.ofJson fields

end Summary

end FlowAtlas
