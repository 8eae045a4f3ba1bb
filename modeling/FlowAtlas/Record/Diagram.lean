import FlowAtlas.CallGraph.Basic
import FlowAtlas.Diagram.Basic
import FlowAtlas.Fields.Record

namespace FlowAtlas

open Fields

def CallEdge.toJson (edge : CallEdge) : Json :=
  .object [("caller_id", .text edge.callerId), ("callee_id", .text edge.calleeId), ("line", .int edge.line)]

namespace Diagram

namespace Node

def toJson (node : Node) : Json :=
  .object [("id", .text node.id), ("label", .text node.label), ("style_class", .text node.style.label),
    ("shape", .text node.shape.label), ("function_id", .ofOption .text node.routineId)]

def ofJson : Json → Checked Node :=
  readRecord "DiagramNode" fun fields =>
    Node.mk <$> required "id" readText fields <*> required "label" readText fields <*>
      required "style_class" (readChoice Style.all Style.label) fields <*>
      optional "shape" .box (readChoice Shape.all Shape.label) fields <*>
      optional "function_id" none (readOptional readText) fields

end Node

namespace Edge

def toJson (edge : Edge) : Json :=
  .object [("source", .text edge.source), ("target", .text edge.target), ("label", .ofOption .text edge.label)]

def ofJson : Json → Checked Edge :=
  readRecord "DiagramEdge" fun fields =>
    Edge.mk <$> required "source" readText fields <*> required "target" readText fields <*>
      optional "label" none (readOptional readText) fields

end Edge

namespace Subgraph

def toJson (subgraph : Subgraph) : Json :=
  .object [("layer_label", .text subgraph.layer), ("node_ids", .texts subgraph.nodeIds)]

def ofJson : Json → Checked Subgraph :=
  readRecord "DiagramSubgraph" fun fields =>
    Subgraph.mk <$> required "layer_label" readText fields <*> required "node_ids" (readList readText) fields

end Subgraph

def toJson (diagram : Diagram) : Json :=
  .object [("nodes", .ofList Node.toJson diagram.nodes), ("edges", .ofList Edge.toJson diagram.edges),
    ("subgraphs", .ofList Subgraph.toJson diagram.subgraphs)]

def ofJson : Json → Checked Diagram :=
  readRecord "DiagramGraph" fun fields =>
    Diagram.mk <$> optional "nodes" [] (readList Node.ofJson) fields <*>
      optional "edges" [] (readList Edge.ofJson) fields <*>
      optional "subgraphs" [] (readList Subgraph.ofJson) fields

end Diagram

end FlowAtlas
