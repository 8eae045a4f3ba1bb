import FlowAtlas.Proofs.Diagram.Labels

/-! The text of a diagram tells the diagram, all but the routines that its nodes stand for. -/

namespace FlowAtlas.Diagram

/-- Diagrams whose text can be read back: each node has a name of its own, and labels stand as they are. -/
structure Writable (diagram : Diagram) : Prop where
  distinct : (diagram.nodes.map (·.id)).Nodup
  nodes : ∀ node ∈ diagram.nodes, IsName node.id ∧ IsPlain node.label
  edges : ∀ edge ∈ diagram.edges, IsName edge.source ∧ IsName edge.target ∧
    ∀ label ∈ edge.label, label ≠ "" ∧ IsPlain label
  subgraphs : ∀ subgraph ∈ diagram.subgraphs, IsPlain subgraph.layer ∧ ∀ id ∈ subgraph.nodeIds, IsName id

instance (diagram : Diagram) : Decidable diagram.Writable :=
  decidable_of_iff ((diagram.nodes.map (·.id)).Nodup ∧ (∀ node ∈ diagram.nodes, IsName node.id ∧ IsPlain node.label) ∧
      (∀ edge ∈ diagram.edges, IsName edge.source ∧ IsName edge.target ∧
        ∀ label ∈ edge.label, label ≠ "" ∧ IsPlain label) ∧
      ∀ subgraph ∈ diagram.subgraphs, IsPlain subgraph.layer ∧ ∀ id ∈ subgraph.nodeIds, IsName id)
    ⟨fun all => ⟨all.1, all.2.1, all.2.2.1, all.2.2.2⟩, fun all => ⟨all.1, all.2, all.3, all.4⟩⟩

def Node.unattributed (node : Node) : Node := { node with routineId := none }

def unattributed (diagram : Diagram) : Diagram := { diagram with nodes := diagram.nodes.map Node.unattributed }

section sections

variable {first second : Diagram}

def styleStatements (nodes : List Node) : List String :=
  (["%% Styles"] ++ Style.all.map styleDefinition ++ Style.all.filterMap (styleUse? nodes)).map indent

def closingStatements (diagram : Diagram) : List String :=
  if diagram.subgraphs.isEmpty then styleStatements diagram.nodes
  else indent "%% Architectural layers" :: ((diagram.subgraphs.flatMap Subgraph.statements).map indent ++
    "" :: styleStatements diagram.nodes)

theorem statements_eq (diagram : Diagram) : diagram.statements = "flowchart TD" :: indent "%% Nodes" ::
    ((diagram.nodes.map Node.statement).map indent ++ "" :: indent "%% Flow" ::
      ((diagram.edges.map Edge.statement).map indent ++ "" :: closingStatements diagram)) := by
  rw [statements, layerStatements, closingStatements]
  split <;> simp [styleStatements, Function.comp_def]

theorem map_indent_injective : Function.Injective (List.map indent) := List.map_injective_iff.mpr indent_injective

theorem section_inj {lines others rest more : List String}
    (same : lines.map indent ++ "" :: rest = others.map indent ++ "" :: more) : lines = others ∧ rest = more := by
  -- A line without an indent ends a section, so the text tells the statements of each.
  obtain ⟨front, back⟩ := Text.cut_inj (flush_notMem (by decide) lines) (flush_notMem (by decide) others) same
  exact ⟨map_indent_injective front, back⟩

theorem styleStatements_inj {nodes others : List Node} (same : styleStatements nodes = styleStatements others) :
    Style.all.filterMap (styleUse? nodes) = Style.all.filterMap (styleUse? others) :=
  List.append_cancel_left (map_indent_injective same)

theorem closingStatements_inj (same : closingStatements first = closingStatements second) :
    first.subgraphs.flatMap Subgraph.statements = second.subgraphs.flatMap Subgraph.statements ∧
      Style.all.filterMap (styleUse? first.nodes) = Style.all.filterMap (styleUse? second.nodes) := by
  have headings : ∀ nodes rest, styleStatements nodes ≠ indent "%% Architectural layers" :: rest := by
    intro nodes rest same
    have heads : indent "%% Styles" = indent "%% Architectural layers" := (List.cons.inj same).1
    exact absurd heads (by decide)
  rw [closingStatements, closingStatements] at same
  split at same
  · rename_i empty
    split at same
    · rename_i none
      rw [List.isEmpty_iff.mp empty, List.isEmpty_iff.mp none]
      exact ⟨rfl, styleStatements_inj same⟩
    · exact absurd same (headings _ _)
  · split at same
    · exact absurd same.symm (headings _ _)
    · obtain ⟨subgraphs, styles⟩ := section_inj (List.cons.inj same).2
      exact ⟨subgraphs, styleStatements_inj styles⟩

theorem statements_inj (same : first.statements = second.statements) :
    first.nodes.map Node.statement = second.nodes.map Node.statement ∧
      first.edges.map Edge.statement = second.edges.map Edge.statement ∧
      first.subgraphs.flatMap Subgraph.statements = second.subgraphs.flatMap Subgraph.statements ∧
      Style.all.filterMap (styleUse? first.nodes) = Style.all.filterMap (styleUse? second.nodes) := by
  rw [statements_eq, statements_eq] at same
  obtain ⟨nodes, behind⟩ := section_inj (List.cons.inj (List.cons.inj same).2).2
  obtain ⟨edges, closing⟩ := section_inj (List.cons.inj behind).2
  exact ⟨nodes, edges, closingStatements_inj closing⟩

end sections

theorem subgraphs_inj {first second : List Subgraph} (plain : ∀ subgraph ∈ first, IsPlain subgraph.layer)
    (bare : ∀ subgraph ∈ second, IsPlain subgraph.layer)
    (same : first.flatMap Subgraph.statements = second.flatMap Subgraph.statements) : first = second := by
  -- A subgraph ends at its own last line, so a run of them is told apart, by induction on the first run.
  have shape : ∀ (subgraph : Subgraph) (rest : List Subgraph), (subgraph :: rest).flatMap Subgraph.statements =
      subgraphHead subgraph.layer :: (subgraph.nodeIds.map indent ++ "end" :: rest.flatMap Subgraph.statements) := by
    intro subgraph rest
    simp [Subgraph.statements, subgraphHead]
  induction first generalizing second with
  | nil =>
      cases second with
      | nil => rfl
      | cons twin others =>
          rw [shape] at same
          cases same
  | cons subgraph rest ih =>
      cases second with
      | nil =>
          rw [shape] at same
          cases same
      | cons twin others =>
          rw [shape, shape] at same
          obtain ⟨heads, behind⟩ := List.cons.inj same
          obtain ⟨members, tails⟩ := Text.cut_inj (flush_notMem (by decide) _) (flush_notMem (by decide) _) behind
          have layers := subgraphHead_inj (plain subgraph List.mem_cons_self) (bare twin List.mem_cons_self) heads
          have later := ih (fun other member => plain other (List.mem_cons_of_mem _ member))
            (fun other member => bare other (List.mem_cons_of_mem _ member)) tails
          obtain ⟨layer, nodeIds⟩ := subgraph
          obtain ⟨otherLayer, otherIds⟩ := twin
          obtain rfl : layer = otherLayer := layers
          obtain rfl : nodeIds = otherIds := map_indent_injective members
          rw [later]

theorem Style.mem_all (style : Style) : style ∈ Style.all := by
  cases style <;> decide

theorem styleUse?_of_mem {nodes : List Node} {style : Style} {id : String} (member : id ∈ styledIds nodes style) :
    ∃ line, styleUse? nodes style = some line := by
  rw [styleUse?, ← styledIds, if_neg]
  · exact ⟨_, rfl⟩
  · rw [List.isEmpty_iff]
    exact List.ne_nil_of_mem member

theorem styledIds_told {nodes others : List Node} (named : ∀ node ∈ nodes, IsName node.id)
    (called : ∀ node ∈ others, IsName node.id)
    (same : Style.all.filterMap (styleUse? nodes) = Style.all.filterMap (styleUse? others)) {node : Node}
    (member : node ∈ nodes) : node.id ∈ styledIds others node.style := by
  have listed : node.id ∈ styledIds nodes node.style :=
    List.mem_map_of_mem (List.mem_filter.mpr ⟨member, beq_self_eq_true _⟩)
  obtain ⟨line, found⟩ := styleUse?_of_mem listed
  have drawn : line ∈ Style.all.filterMap (styleUse? nodes) := List.mem_filterMap.mpr ⟨_, Style.mem_all _, found⟩
  rw [same] at drawn
  obtain ⟨style, -, again⟩ := List.mem_filterMap.mp drawn
  obtain ⟨rfl, ids⟩ := styleUse?_inj named called found again
  rw [← ids]
  exact listed

section writable

variable {first second : Diagram} (writable : first.Writable) (readable : second.Writable)
include writable readable

theorem nodes_told (statements : first.nodes.map Node.statement = second.nodes.map Node.statement)
    (styles : Style.all.filterMap (styleUse? first.nodes) = Style.all.filterMap (styleUse? second.nodes)) :
    first.nodes.map Node.unattributed = second.nodes.map Node.unattributed := by
  have named : ∀ node ∈ first.nodes, IsName node.id := fun node member => (writable.nodes node member).1
  have called : ∀ node ∈ second.nodes, IsName node.id := fun node member => (readable.nodes node member).1
  apply Text.map_congr_of_map _ statements
  intro node member twin among same
  obtain ⟨ids, shapes, labels⟩ := Node.statement_inj (named node member) (called twin among)
    (writable.nodes node member).2 (readable.nodes twin among).2 same
  -- The style of a node stands behind its id, and no other node of the second diagram has that id.
  obtain ⟨other, listed, sameId⟩ := List.mem_map.mp (styledIds_told named called styles member)
  obtain ⟨held, styled⟩ := List.mem_filter.mp listed
  obtain rfl : other = twin := List.inj_on_of_nodup_map readable.distinct held among (sameId.trans ids)
  rw [Node.unattributed, Node.unattributed, ids, shapes, labels, beq_iff_eq.mp styled]

theorem edges_told (statements : first.edges.map Edge.statement = second.edges.map Edge.statement) :
    first.edges = second.edges := by
  have told : first.edges.map id = second.edges.map id := by
    apply Text.map_congr_of_map _ statements
    intro edge member twin among same
    obtain ⟨named, -, plain⟩ := writable.edges edge member
    obtain ⟨called, -, bare⟩ := readable.edges twin among
    exact Edge.statement_inj named called plain bare same
  rwa [List.map_id, List.map_id] at told

end writable

theorem Writable.statements_oneLine {diagram : Diagram} (writable : diagram.Writable) :
    ∀ line ∈ diagram.statements, '\n' ∉ line.toList := by
  have indented : ∀ lines : List String, (∀ line ∈ lines, '\n' ∉ line.toList) →
      ∀ line ∈ lines.map indent, '\n' ∉ line.toList := by
    intro lines whole line member
    obtain ⟨inner, listed, rfl⟩ := List.mem_map.mp member
    exact indent_oneLine (whole inner listed)
  have nodes : ∀ line ∈ diagram.nodes.map Node.statement, '\n' ∉ line.toList := by
    intro line member
    obtain ⟨node, listed, rfl⟩ := List.mem_map.mp member
    obtain ⟨named, plain⟩ := writable.nodes node listed
    exact Node.statement_oneLine named plain
  have edges : ∀ line ∈ diagram.edges.map Edge.statement, '\n' ∉ line.toList := by
    intro line member
    obtain ⟨edge, listed, rfl⟩ := List.mem_map.mp member
    obtain ⟨source, target, plain⟩ := writable.edges edge listed
    exact Edge.statement_oneLine source target plain
  have subgraphs : ∀ line ∈ diagram.subgraphs.flatMap Subgraph.statements, '\n' ∉ line.toList := by
    intro line member
    obtain ⟨subgraph, listed, within⟩ := List.mem_flatMap.mp member
    obtain ⟨plain, named⟩ := writable.subgraphs subgraph listed
    have members := indented subgraph.nodeIds fun id among => (named id among).notMem '\n' rfl
    rcases List.mem_append.mp within with front | last
    · rcases List.mem_append.mp front with head | inner
      · rw [List.mem_singleton.mp head]
        exact subgraphHead_oneLine plain
      · exact members line inner
    · rw [List.mem_singleton.mp last]
      decide
  have styles : ∀ line ∈ styleStatements diagram.nodes, '\n' ∉ line.toList := by
    apply indented
    intro line member
    rcases List.mem_append.mp member with fixed | used
    · rcases List.mem_cons.mp fixed with rfl | defined
      · decide
      · obtain ⟨style, -, rfl⟩ := List.mem_map.mp defined
        exact styleDefinition_oneLine style
    · obtain ⟨style, -, found⟩ := List.mem_filterMap.mp used
      exact styleUse?_oneLine (fun node member => (writable.nodes node member).1) found
  have closing : ∀ line ∈ diagram.closingStatements, '\n' ∉ line.toList := by
    rw [closingStatements]
    split
    · exact styles
    · rw [List.forall_mem_cons, List.forall_mem_append, List.forall_mem_cons]
      exact ⟨by decide, indented _ subgraphs, by decide, styles⟩
  rw [statements_eq, List.forall_mem_cons, List.forall_mem_cons, List.forall_mem_append, List.forall_mem_cons,
    List.forall_mem_cons, List.forall_mem_append, List.forall_mem_cons]
  exact ⟨by decide, by decide, indented _ nodes, by decide, by decide, indented _ edges, by decide, closing⟩

theorem Writable.unattributed_of_render {first second : Diagram} (writable : first.Writable)
    (readable : second.Writable) (same : first.render = second.render) : first.unattributed = second.unattributed := by
  have joined : "\n".intercalate first.statements = "\n".intercalate second.statements := by
    have chars := congrArg String.toList same
    rw [render, render, String.toList_append, String.toList_append] at chars
    exact String.toList_inj.mp (List.append_cancel_right chars)
  have filled : ∀ diagram : Diagram, diagram.statements ≠ [] := by
    intro diagram
    rw [statements_eq]
    exact List.cons_ne_nil _ _
  have lines : first.statements = second.statements :=
    Text.intercalate_injective rfl (filled first) (filled second) writable.statements_oneLine
      readable.statements_oneLine joined
  obtain ⟨nodes, edges, subgraphs, styles⟩ := statements_inj lines
  rw [unattributed, unattributed, nodes_told writable readable nodes styles, edges_told writable readable edges,
    subgraphs_inj (fun subgraph member => (writable.subgraphs subgraph member).1)
      (fun subgraph member => (readable.subgraphs subgraph member).1) subgraphs]

theorem render_unattributed (diagram : Diagram) : diagram.unattributed.render = diagram.render := by
  have uses : styleUse? (diagram.nodes.map Node.unattributed) = styleUse? diagram.nodes := by
    funext style
    rw [styleUse?, styleUse?, List.filter_map, List.map_map]
    rfl
  rw [render, render, statements, statements, unattributed, List.map_map, uses]
  rfl

theorem ofSelection_writable {selected : List Routine}
    (named : ∀ routine ∈ selected, ∀ c ∈ routine.name.toList, Text.isWord c = true) (layers : Table (List String)) :
    (ofSelection selected layers).Writable := by
  have ids := ids_named selected layers
  have answered : ∀ answer ∈ answers, ∀ label ∈ answer, label ≠ "" ∧ IsPlain label := by decide
  have layered : ∀ label ∈ Layer.labels, IsPlain label := by decide
  constructor
  case distinct => exact nodes_distinct selected layers
  case nodes =>
    intro node member
    exact ⟨ids node.id (List.mem_map_of_mem member), (depicts_nodes selected layers node member).plain named⟩
  case edges =>
    intro edge member
    obtain ⟨source, target⟩ := (chainOf_filed selected layers).ends edge member
    exact ⟨ids _ source, ids _ target, answered _ (edges_answer selected layers edge member)⟩
  case subgraphs =>
    intro subgraph member
    obtain ⟨listed, members⟩ := subgraphs_named member
    exact ⟨layered _ listed, members⟩

/-- Two diagrams have one text just where they differ at most in the routines that their nodes stand for. This holds
of all diagrams that can be written, and those of routines named by word characters are such. -/
theorem render_eq_iff :
    (∀ first second : Diagram, first.Writable → second.Writable →
      (first.render = second.render ↔ first.unattributed = second.unattributed)) ∧
    ∀ (selected : List Routine) (layers : Table (List String)),
      (∀ routine ∈ selected, ∀ c ∈ routine.name.toList, Text.isWord c = true) →
        (ofSelection selected layers).Writable := by
  constructor
  · intro first second writable readable
    constructor
    · exact writable.unattributed_of_render readable
    · intro same
      rw [← render_unattributed first, same, render_unattributed second]
  · intro selected layers named
    exact ofSelection_writable named layers

theorem render_eq_iff_check :
    let check (routineId yes no : String) : Diagram :=
      ⟨[⟨"A", "Start", .entry, .box, none⟩, ⟨"B", "Check: Check passed?", .decision, .diamond, some routineId⟩,
          ⟨"C", "Handle alternative", .process, .box, none⟩, ⟨"D", "Return result", .result, .box, none⟩],
        [⟨"A", "B", none⟩, ⟨"B", "C", some no⟩, ⟨"B", "D", some yes⟩], [⟨"Services", ["A", "B"]⟩]⟩
    let routine : Routine := { id := "f:check_all:1", name := "check_all", file := "f", line := 1 }
    (check "f" "Yes" "No").Writable ∧ (check "g" "Yes" "No").Writable ∧ (check "f" "No" "Yes").Writable ∧
      (check "f" "Yes" "No").render = (check "g" "Yes" "No").render ∧
      (check "f" "Yes" "No").render ≠ (check "f" "No" "Yes").render ∧
      (∀ c ∈ routine.name.toList, Text.isWord c = true) ∧ (ofSelection [routine] []).Writable := by
  intro check routine
  have first : (check "f" "Yes" "No").Writable := by decide
  have second : (check "g" "Yes" "No").Writable := by decide
  have turned : (check "f" "No" "Yes").Writable := by decide
  have word : ∀ c ∈ routine.name.toList, Text.isWord c = true := List.all_eq_true.mp (by decide)
  refine ⟨first, second, turned, ?_, ?_, word, ?_⟩
  · exact (render_eq_iff.1 _ _ first second).mpr rfl
  · exact (render_eq_iff.1 _ _ first turned).not.mpr (by decide)
  · exact render_eq_iff.2 _ _ (List.forall_mem_singleton.mpr word)

end FlowAtlas.Diagram
