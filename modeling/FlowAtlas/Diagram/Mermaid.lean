import FlowAtlas.Diagram.Basic
import FlowAtlas.Text.Character

namespace FlowAtlas.Diagram

def appearance : Style → String
  | .entry => "fill:rgba(128,128,128,0.2),stroke:rgba(128,128,128,0.8),stroke-width:3px,color:rgba(200,200,200,0.95),font-weight:600"
  | .process => "fill:rgba(112,112,112,0.12),stroke:rgba(128,128,128,0.6),stroke-width:2px,color:rgba(200,200,200,0.9),font-weight:500"
  | .decision => "fill:rgba(96,96,96,0.15),stroke:rgba(128,128,128,0.7),stroke-width:2px,color:rgba(200,200,200,0.9),font-weight:500"
  | .service => "fill:rgba(120,120,120,0.12),stroke:rgba(128,128,128,0.6),stroke-width:2px,color:rgba(200,200,200,0.9),font-weight:500"
  | .result => "fill:rgba(104,104,104,0.15),stroke:rgba(128,128,128,0.7),stroke-width:2px,color:rgba(200,200,200,0.9),font-weight:500"

def escapeChar (c : Char) : List Char :=
  if c == '\x22' then "#quot;".toList else if c == '\n' then [' '] else [c]

def escapeLabel (label : String) : String := String.ofList (label.toList.flatMap escapeChar)

def quoteLabel (label : String) : String := "\"" ++ escapeLabel label ++ "\""

def Node.statement (node : Node) : String :=
  match node.shape with
  | .diamond => node.id ++ "\x7b" ++ quoteLabel node.label ++ "\x7d"
  | .box => node.id ++ "[" ++ quoteLabel node.label ++ "]"

/-- An edge label that is empty is as good as none. -/
def Edge.arrow (edge : Edge) : String :=
  match edge.label with
  | some label => if label.isEmpty then "-->" else "-->|" ++ escapeLabel label ++ "|"
  | none => "-->"

def Edge.statement (edge : Edge) : String := s!"{edge.source} {edge.arrow} {edge.target}"

def subgraphName (layer : String) : String := String.ofList (layer.toList.filter Text.isWord)

def indent (line : String) : String := "    " ++ line

def Subgraph.statements (subgraph : Subgraph) : List String :=
  [s!"subgraph {subgraphName subgraph.layer}[{quoteLabel subgraph.layer}]"] ++
    subgraph.nodeIds.map indent ++ ["end"]

def layerStatements (subgraphs : List Subgraph) : List String :=
  if subgraphs.isEmpty then []
  else ["", indent "%% Architectural layers"] ++ (subgraphs.flatMap Subgraph.statements).map indent

def styleDefinition (style : Style) : String := s!"classDef {style.label} {appearance style}"

def styleUse? (nodes : List Node) (style : Style) : Option String :=
  let ids := (nodes.filter fun node => node.style == style).map (·.id)
  let joined := ",".intercalate ids
  if ids.isEmpty then none else some s!"class {joined} {style.label}"

def statements (diagram : Diagram) : List String :=
  ["flowchart TD", indent "%% Nodes"] ++ diagram.nodes.map (fun node => indent node.statement) ++
    ["", indent "%% Flow"] ++ diagram.edges.map (fun edge => indent edge.statement) ++
    layerStatements diagram.subgraphs ++
    ["", indent "%% Styles"] ++ Style.all.map (fun style => indent (styleDefinition style)) ++
    (Style.all.filterMap (styleUse? diagram.nodes)).map indent

def render (diagram : Diagram) : String := "\n".intercalate diagram.statements ++ "\n"

end FlowAtlas.Diagram
