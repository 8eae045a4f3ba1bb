import FlowAtlas.Proofs.Diagram.Rendering
import FlowAtlas.Proofs.Text.Margins

namespace FlowAtlas.Diagram

open Text

def texts (diagram : Diagram) : List String :=
  diagram.nodes.flatMap (fun node => [node.id, node.label]) ++
    diagram.edges.flatMap (fun edge => edge.source :: edge.target :: edge.label.toList) ++
    diagram.subgraphs.flatMap fun subgraph => subgraph.layer :: subgraph.nodeIds

section unquoted

theorem escapeLabel_without {label : String} (clean : Without '\x60' label) : Without '\x60' (escapeLabel label) := by
  rw [Without, escapeLabel, String.toList_ofList]
  intro member
  obtain ⟨c, held, escaped⟩ := List.mem_flatMap.mp member
  rw [escapeChar] at escaped
  split at escaped
  · exact absurd escaped (by decide)
  · split at escaped
    · exact absurd escaped (by decide)
    · rw [List.mem_singleton.mp escaped] at clean
      exact clean held

theorem quoteLabel_without {label : String} (clean : Without '\x60' label) : Without '\x60' (quoteLabel label) := by
  have quote : Without '\x60' "\"" := by decide
  simp [quoteLabel, quote, escapeLabel_without clean]

theorem indent_without {line : String} (clean : Without '\x60' line) : Without '\x60' (indent line) :=
  without_append.mpr ⟨by decide, clean⟩

theorem Node.statement_without {node : Node} (id : Without '\x60' node.id) (label : Without '\x60' node.label) :
    Without '\x60' node.statement := by
  have brackets : ∀ bracket ∈ ["[", "]", "\x7b", "\x7d"], Without '\x60' bracket := by decide
  rw [Node.statement]
  cases node.shape <;> simp [id, quoteLabel_without label, brackets]

theorem Edge.statement_without {edge : Edge} (source : Without '\x60' edge.source) (target : Without '\x60' edge.target)
    (label : ∀ label ∈ edge.label, Without '\x60' label) : Without '\x60' edge.statement := by
  have marks : ∀ mark ∈ [" ", "-->", "-->|", "|"], Without '\x60' mark := by decide
  have arrow : Without '\x60' edge.arrow := by
    rw [Edge.arrow]
    cases found : edge.label with
    | none => simp [marks]
    | some text =>
        have clean := escapeLabel_without (label text found)
        dsimp only
        split <;> simp [marks, clean]
  simp [Edge.statement, toString, source, target, arrow, marks]

theorem Subgraph.statements_without {subgraph : Subgraph} (layer : Without '\x60' subgraph.layer)
    (nodeIds : ∀ id ∈ subgraph.nodeIds, Without '\x60' id) : ∀ line ∈ subgraph.statements, Without '\x60' line := by
  have marks : ∀ mark ∈ ["subgraph ", "[", "]", "end"], Without '\x60' mark := by decide
  have name : Without '\x60' (subgraphName subgraph.layer) := by
    rw [Without, subgraphName, String.toList_ofList]
    exact fun member => layer (List.mem_of_mem_filter member)
  intro line member
  simp only [Subgraph.statements, List.mem_append, List.mem_singleton, List.mem_map] at member
  rcases member with (rfl | ⟨id, among, rfl⟩) | rfl
  · simp [toString, name, quoteLabel_without layer, marks]
  · exact indent_without (nodeIds id among)
  · exact marks _ (by simp)

theorem styleDefinition_without (style : Style) : Without '\x60' (styleDefinition style) := by
  have marks : Without '\x60' "classDef " ∧ Without '\x60' " " ∧ Without '\x60' style.label := by
    cases style <;> decide
  have appearance : Without '\x60' (appearance style) := by
    cases style <;> exact without_literal (by decide +kernel)
  simp [styleDefinition, toString, marks, appearance]

theorem styleUse?_without {nodes : List Node} (ids : ∀ node ∈ nodes, Without '\x60' node.id) {style : Style}
    {line : String} (found : styleUse? nodes style = some line) : Without '\x60' line := by
  have marks : Without '\x60' "class " ∧ Without '\x60' " " ∧ Without '\x60' style.label := by
    cases style <;> decide
  have joined : Without '\x60' (",".intercalate (styledIds nodes style)) := by
    refine without_intercalate (by decide) fun id member => ?_
    obtain ⟨node, listed, rfl⟩ := List.mem_map.mp member
    exact ids node (List.mem_of_mem_filter listed)
  rw [styleUse?, ← styledIds] at found
  split at found
  · cases found
  · rw [← Option.some.inj found]
    simp [toString, marks, joined]

variable {diagram : Diagram} (clean : ∀ text ∈ diagram.texts, Without '\x60' text)

include clean

theorem nodes_without : ∀ node ∈ diagram.nodes, Without '\x60' node.id ∧ Without '\x60' node.label := by
  intro node member
  have among : ∀ text ∈ [node.id, node.label], text ∈ diagram.texts := by
    intro text held
    exact List.mem_append_left _ (List.mem_append_left _ (List.mem_flatMap.mpr ⟨node, member, held⟩))
  exact ⟨clean _ (among _ (by simp)), clean _ (among _ (by simp))⟩

theorem edges_without : ∀ edge ∈ diagram.edges, Without '\x60' edge.source ∧ Without '\x60' edge.target ∧
    ∀ label ∈ edge.label, Without '\x60' label := by
  intro edge member
  have among : ∀ text ∈ edge.source :: edge.target :: edge.label.toList, text ∈ diagram.texts := by
    intro text held
    exact List.mem_append_left _ (List.mem_append_right _ (List.mem_flatMap.mpr ⟨edge, member, held⟩))
  refine ⟨clean _ (among _ (by simp)), clean _ (among _ (by simp)), fun label held => clean _ (among _ ?_)⟩
  simpa using Or.inr (Or.inr held)

theorem subgraphs_without : ∀ subgraph ∈ diagram.subgraphs, Without '\x60' subgraph.layer ∧
    ∀ id ∈ subgraph.nodeIds, Without '\x60' id := by
  intro subgraph member
  have among : ∀ text ∈ subgraph.layer :: subgraph.nodeIds, text ∈ diagram.texts := by
    intro text held
    exact List.mem_append_right _ (List.mem_flatMap.mpr ⟨subgraph, member, held⟩)
  exact ⟨clean _ (among _ (by simp)), fun id held => clean _ (among _ (by simp [held]))⟩

theorem statements_without : ∀ line ∈ diagram.statements, Without '\x60' line := by
  have first : ∀ line ∈ ["flowchart TD", indent "%% Nodes"], Without '\x60' line := by decide
  have flow : ∀ line ∈ ["", indent "%% Flow"], Without '\x60' line := by decide
  have layers : ∀ line ∈ ["", indent "%% Architectural layers"], Without '\x60' line := by decide
  have styles : ∀ line ∈ ["", indent "%% Styles"], Without '\x60' line := by decide
  intro line member
  simp only [statements, List.mem_append, List.mem_map] at member
  rcases member with ((((((heading | ⟨node, held, rfl⟩) | heading) | ⟨edge, held, rfl⟩) | layered) | heading) |
    ⟨style, _, rfl⟩) | ⟨use, held, rfl⟩
  · exact first line heading
  · obtain ⟨id, label⟩ := nodes_without clean node held
    exact indent_without (Node.statement_without id label)
  · exact flow line heading
  · obtain ⟨source, target, label⟩ := edges_without clean edge held
    exact indent_without (Edge.statement_without source target label)
  · rw [layerStatements] at layered
    split at layered
    · cases layered
    · rcases List.mem_append.mp layered with heading | inner
      · exact layers line heading
      · obtain ⟨inside, among, rfl⟩ := List.mem_map.mp inner
        obtain ⟨subgraph, held, stated⟩ := List.mem_flatMap.mp among
        obtain ⟨layer, nodeIds⟩ := subgraphs_without clean subgraph held
        exact indent_without (Subgraph.statements_without layer nodeIds inside stated)
  · exact styles line heading
  · exact indent_without (styleDefinition_without style)
  · obtain ⟨style, _, found⟩ := List.mem_filterMap.mp held
    exact indent_without (styleUse?_without (fun node listed => (nodes_without clean node listed).1) found)

theorem render_without : Without '\x60' diagram.render :=
  without_append.mpr ⟨without_intercalate (by decide) (statements_without clean), by decide⟩

end unquoted

section ends

variable {nodes : List Node} {style : Style} {line : String}

theorem styleDefinition_solid (style : Style) : EndsSolid (indent (styleDefinition style)).toList := by
  have appearance : EndsSolid (appearance style).toList := by
    cases style <;> exact endsSolid_literal ⟨'0', by decide +kernel, by decide⟩
  have split : (indent (styleDefinition style)).toList =
      ("    classDef ".toList ++ (style.label.toList ++ [' '])) ++ (Diagram.appearance style).toList := by
    simp [styleDefinition, toString, indent]
  exact split ▸ endsSolid_append _ appearance

theorem styleUse?_solid (found : styleUse? nodes style = some line) : EndsSolid (indent line).toList := by
  have label : EndsSolid style.label.toList := by
    cases style <;> exact ⟨_, rfl, by decide⟩
  have split : (indent line).toList =
      ("    class ".toList ++ ((",".intercalate (styledIds nodes style)).toList ++ [' '])) ++ style.label.toList := by
    rw [indent_toList, (styleUse?_toList found).2]
    simp
  exact split ▸ endsSolid_append _ label

theorem statements_concat (diagram : Diagram) : ∃ front last, EndsSolid last.toList ∧
    diagram.statements = ("flowchart TD" :: front) ++ [last] := by
  let styled := Style.all.map (fun style => indent (styleDefinition style)) ++
    (Style.all.filterMap (styleUse? diagram.nodes)).map indent
  have solid : ∀ line ∈ styled, EndsSolid line.toList := by
    intro line member
    rcases List.mem_append.mp member with defines | uses
    · obtain ⟨style, _, rfl⟩ := List.mem_map.mp defines
      exact styleDefinition_solid style
    · obtain ⟨use, among, rfl⟩ := List.mem_map.mp uses
      obtain ⟨style, _, found⟩ := List.mem_filterMap.mp among
      exact styleUse?_solid found
  have given : styled ≠ [] := by simp [styled, Style.all]
  obtain ⟨inner, last, concat⟩ := (List.eq_nil_or_concat' styled).resolve_left given
  obtain ⟨front, split⟩ : ∃ front, diagram.statements = "flowchart TD" :: (front ++ styled) :=
    ⟨_, List.append_assoc _ _ _⟩
  refine ⟨front ++ inner, last, solid last (concat ▸ by simp), ?_⟩
  rw [split, concat, ← List.append_assoc]
  rfl

/-- The text begins with its heading, and but for the line feed at its end it ends in a style. -/
theorem render_split (diagram : Diagram) : ∃ body, EndsSolid body ∧
    diagram.render.toList = "flowchart TD".toList ++ (body ++ ['\n']) := by
  obtain ⟨front, last, solid, concat⟩ := statements_concat diagram
  have heading : "\n".intercalate ("flowchart TD" :: front) =
      "flowchart TD" ++ "\n".intercalate ("" :: front) := by
    rw [← String.intercalate_cons_append, String.append_empty]
  have joined := String.intercalate_append_of_ne_nil (s := "\n") (l := "flowchart TD" :: front) (m := [last])
    (List.cons_ne_nil _ _) (List.cons_ne_nil _ _)
  refine ⟨("\n".intercalate ("" :: front) ++ "\n").toList ++ last.toList, endsSolid_append _ solid, ?_⟩
  rw [render, concat, joined, heading]
  simp

end ends

end FlowAtlas.Diagram
