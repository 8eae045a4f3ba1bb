import FlowAtlas.Config
import FlowAtlas.Fields.Record
import FlowAtlas.Tree.Path

namespace FlowAtlas

open Fields

structure Target where
  path : String
  config : Config
  deriving DecidableEq, Repr

inductive Query where
  | analysis (target : Target)
  | diagram (target : Target) (augmented : Bool)
  | callGraph (target : Target) (symbol : String) (limit : Int)
  | paths (target : Target) (start stop : String) (limit : Int)
  deriving DecidableEq, Repr

inductive QueryKind where
  | analysis
  | diagram
  | callGraph
  | paths
  deriving DecidableEq, Repr

def Target.ofFields (fields : Entries) : Checked Target :=
  Target.mk <$> required "root_path" readText fields <*>
    ((optional "config" none (readOptional (Config.ofJson .value)) fields).map fun config => config.getD {})

namespace QueryKind

def endpoint : QueryKind → String
  | analysis => "/analyze"
  | diagram => "/diagram"
  | callGraph => "/callgraph"
  | paths => "/callgraph/paths"

def ofEndpoint? (place : String) : Option QueryKind :=
  [analysis, diagram, callGraph, paths].find? fun kind => kind.endpoint == place

def usualLimit : Int := 5

def read : QueryKind → Json → Checked Query
  | analysis => readRecord "AnalyzeRequest" fun fields => Query.analysis <$> Target.ofFields fields
  | diagram =>
    readRecord "DiagramRequest" fun fields =>
      Query.diagram <$> Target.ofFields fields <*> optional "augment" false readBoolean fields
  | callGraph =>
    readRecord "CallGraphRequest" fun fields =>
      Query.callGraph <$> Target.ofFields fields <*> required "symbol" readText fields <*>
        optional "max_depth" usualLimit readInteger fields
  | paths =>
    readRecord "PathsRequest" fun fields =>
      Query.paths <$> Target.ofFields fields <*> required "start" readText fields <*>
        required "end" readText fields <*> optional "max_depth" usualLimit readInteger fields

end QueryKind

def Query.target : Query → Target
  | analysis target => target
  | diagram target _ => target
  | callGraph target _ _ => target
  | paths target _ _ _ => target

def Query.root (query : Query) (current : String) : String := Path.absolute current query.target.path

end FlowAtlas
