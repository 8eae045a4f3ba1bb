import FlowAtlas.Fields.Record
import FlowAtlas.Source.Extraction

namespace FlowAtlas

open Fields

namespace SourceFile

def toJson (file : SourceFile) : Json :=
  .object [("path", .text file.path), ("rel_path", .text file.relativePath), ("dialect", .text file.dialect.label)]

def ofJson : Json → Checked SourceFile :=
  readRecord "SourceFile" fun fields =>
    SourceFile.mk <$> required "path" readText fields <*> required "rel_path" readText fields <*>
      required "dialect" (readChoice Dialect.all Dialect.label) fields

end SourceFile

namespace CallSite

def toJson (call : CallSite) : Json := .object [("callee_name", .text call.callee), ("line", .int call.line)]

def ofJson : Json → Checked CallSite :=
  readRecord "CallSite" fun fields =>
    CallSite.mk <$> required "callee_name" readText fields <*> required "line" readInteger fields

end CallSite

namespace IncomingCall

def toJson (call : IncomingCall) : Json :=
  .object [("caller_id", .text call.callerId), ("caller_name", .text call.callerName), ("file", .text call.file),
    ("line", .int call.line)]

def ofJson : Json → Checked IncomingCall :=
  readRecord "IncomingCall" fun fields =>
    IncomingCall.mk <$> required "caller_id" readText fields <*> required "caller_name" readText fields <*>
      required "file" readText fields <*> required "line" readInteger fields

end IncomingCall

namespace Decision

def toJson (decision : Decision) : Json :=
  .object [("kind", .text decision.kind.label), ("file", .text decision.file), ("line", .int decision.line),
    ("snippet", .text decision.snippet), ("owning_function", .ofOption .text decision.owner),
    ("weight", .int decision.weight)]

def ofJson : Json → Checked Decision :=
  readRecord "DecisionPoint" fun fields =>
    Decision.mk <$> required "kind" (readChoice DecisionKind.all DecisionKind.label) fields <*>
      required "file" readText fields <*> required "line" readInteger fields <*>
      required "snippet" readText fields <*> optional "owning_function" none (readOptional readText) fields <*>
      optional "weight" 1 readInteger fields

end Decision

namespace Routine

def toJson (routine : Routine) : Json :=
  .object [("id", .text routine.id), ("name", .text routine.name), ("file", .text routine.file),
    ("line", .int routine.line), ("owning_class", .ofOption .text routine.owner),
    ("kind", .text routine.kind.label), ("is_exported", .bool routine.exported),
    ("is_entry_point", .bool routine.entryPoint), ("is_event_handler", .bool routine.eventHandler),
    ("is_business_logic", .bool routine.businessLogic), ("cyclomatic_weight", .int routine.cyclomaticWeight),
    ("outgoing_calls", .ofList CallSite.toJson routine.outgoing),
    ("incoming_calls", .ofList IncomingCall.toJson routine.incoming),
    ("decision_points", .ofList Decision.toJson routine.decisions), ("importance", .int routine.importance),
    ("layers", .texts routine.layers), ("layer", .ofOption .text routine.layer)]

def ofJson : Json → Checked Routine :=
  readRecord "FunctionRecord" fun fields =>
    Routine.mk <$> required "id" readText fields <*> required "name" readText fields <*>
      required "file" readText fields <*> required "line" readInteger fields <*>
      optional "owning_class" none (readOptional readText) fields <*>
      optional "kind" .function (readChoice RoutineKind.all RoutineKind.label) fields <*>
      optional "is_exported" false readBoolean fields <*> optional "is_entry_point" false readBoolean fields <*>
      optional "is_event_handler" false readBoolean fields <*>
      optional "is_business_logic" false readBoolean fields <*>
      optional "cyclomatic_weight" 1 readInteger fields <*>
      optional "outgoing_calls" [] (readList CallSite.ofJson) fields <*>
      optional "incoming_calls" [] (readList IncomingCall.ofJson) fields <*>
      optional "decision_points" [] (readList Decision.ofJson) fields <*>
      optional "importance" 0 readInteger fields <*> optional "layers" [] (readList readText) fields <*>
      optional "layer" none (readOptional readText) fields

end Routine

namespace ClassDecl

def toJson (decl : ClassDecl) : Json :=
  .object [("name", .text decl.name), ("file", .text decl.file), ("line", .int decl.line),
    ("method_names", .texts decl.methods), ("is_exported", .bool decl.exported)]

def ofJson : Json → Checked ClassDecl :=
  readRecord "ClassRecord" fun fields =>
    ClassDecl.mk <$> required "name" readText fields <*> required "file" readText fields <*>
      required "line" readInteger fields <*> optional "method_names" [] (readList readText) fields <*>
      optional "is_exported" false readBoolean fields

end ClassDecl

namespace ImportRef

def toJson (ref : ImportRef) : Json :=
  .object [("file", .text ref.file), ("line", .int ref.line), ("target", .text ref.target)]

def ofJson : Json → Checked ImportRef :=
  readRecord "ImportReference" fun fields =>
    ImportRef.mk <$> required "file" readText fields <*> required "line" readInteger fields <*>
      required "target" readText fields

end ImportRef

def Json.ofTable {α : Type} (encode : α → Json) (entries : List (String × α)) : Json :=
  .object (entries.map fun entry => (entry.1, encode entry.2))

namespace TreeStats

def toJson (stats : TreeStats) : Json :=
  .object [("total_files", .int stats.files), ("total_directories", .int stats.directories),
    ("total_lines", .int stats.lines), ("file_types", .ofTable .int stats.extensions)]

def ofJson : Json → Checked TreeStats :=
  readRecord "RepositoryStats" fun fields =>
    TreeStats.mk <$> optional "total_files" 0 readInteger fields <*>
      optional "total_directories" 0 readInteger fields <*> optional "total_lines" 0 readInteger fields <*>
      optional "file_types" [] (readMap readInteger) fields

end TreeStats

namespace Extraction

def toJson (extraction : Extraction) : Json :=
  .object [("files", .ofList SourceFile.toJson extraction.files), ("stats", extraction.stats.toJson),
    ("classes", .ofList ClassDecl.toJson extraction.classes),
    ("functions", .ofList Routine.toJson extraction.routines),
    ("imports", .ofList ImportRef.toJson extraction.imports),
    ("decision_points", .ofList Decision.toJson extraction.decisions)]

def ofJson : Json → Checked Extraction :=
  readRecord "ExtractionResult" fun fields =>
    Extraction.mk <$> optional "files" [] (readList SourceFile.ofJson) fields <*>
      optional "stats" {} TreeStats.ofJson fields <*> optional "classes" [] (readList ClassDecl.ofJson) fields <*>
      optional "functions" [] (readList Routine.ofJson) fields <*>
      optional "imports" [] (readList ImportRef.ofJson) fields <*>
      optional "decision_points" [] (readList Decision.ofJson) fields

end Extraction

end FlowAtlas
