import FlowAtlas.Proofs.CallGraph.Coherence

/-! Call graphs as they come about, a routine or an edge at a time. In whatever order things are added, nodes, edges
and both indexes stay in step. -/

namespace FlowAtlas.CallGraph

inductive Addition where
  | node (routine : Routine)
  | edge (edge : CallEdge)
  deriving DecidableEq, Repr

def Addition.apply (graph : CallGraph) : Addition → CallGraph
  | .node routine => graph.addNode routine
  | .edge added => graph.addEdge added

def ofAdditions (additions : List Addition) : CallGraph := additions.foldl Addition.apply empty

def addedIds (additions : List Addition) : List String :=
  additions.filterMap fun
    | .node routine => some routine.id
    | .edge _ => none

/-- The edges that are added when both of their ends are known. -/
def settledEdges (known : List String) : List Addition → List CallEdge
  | [] => []
  | .node routine :: rest => settledEdges (routine.id :: known) rest
  | .edge edge :: rest =>
    if edge.callerId ∈ known ∧ edge.calleeId ∈ known then edge :: settledEdges known rest
    else settledEdges known rest

/-- Nodes, edges and indexes say the same, and what is added next keeps what it does not replace. -/
structure InStep (graph : CallGraph) : Prop where
  distinct : graph.ids.Nodup
  filed : ∀ entry ∈ graph.nodes, entry.2.id = entry.1
  keys : graph.callees.keys = graph.ids ∧ graph.callers.keys = graph.ids
  known : ∀ edge ∈ graph.edges, edge.callerId ∈ graph.ids ∧ edge.calleeId ∈ graph.ids
  callees : ∀ id, graph.calleesOf id = (targets graph.edges id).eraseDups
  callers : ∀ id, graph.callersOf id = (sources graph.edges id).eraseDups
  symmetric : ∀ first second, second ∈ graph.calleesOf first ↔ first ∈ graph.callersOf second
  unknown : ∀ edge, ¬ (edge.callerId ∈ graph.ids ∧ edge.calleeId ∈ graph.ids) → graph.addEdge edge = graph
  again : ∀ routine, routine.id ∈ graph.ids → graph.addNode routine =
    { graph with nodes := graph.nodes.map fun entry => if entry.1 = routine.id then (entry.1, routine) else entry }

theorem ofAdditions_append (additions : List Addition) (addition : Addition) :
    ofAdditions (additions ++ [addition]) = addition.apply (ofAdditions additions) := by
  rw [ofAdditions, List.foldl_append]
  rfl

theorem addedIds_append (front back : List Addition) : addedIds (front ++ back) = addedIds front ++ addedIds back :=
  List.filterMap_append

theorem addEdge_nodes (graph : CallGraph) (edge : CallEdge) : (graph.addEdge edge).nodes = graph.nodes := by
  rw [addEdge]
  split <;> rfl

theorem addEdge_ids (graph : CallGraph) (edge : CallEdge) : (graph.addEdge edge).ids = graph.ids := by
  rw [ids, addEdge_nodes, ids]

theorem ofAdditions_coherent (additions : List Addition) : (ofAdditions additions).Coherent := by
  induction additions using List.reverseRecOn with
  | nil => exact empty_coherent
  | append_singleton additions addition ih =>
      rw [ofAdditions_append]
      cases addition with
      | node routine => exact addNode_coherent ih routine
      | edge edge => exact addEdge_coherent ih edge

theorem ofAdditions_ids (additions : List Addition) : (ofAdditions additions).ids = (addedIds additions).eraseDups := by
  induction additions using List.reverseRecOn with
  | nil => rfl
  | append_singleton additions addition ih =>
      rw [ofAdditions_append, addedIds_append]
      cases addition with
      | node routine =>
          calc (ofAdditions additions |>.addNode routine).ids
              = noteNew routine.id (ofAdditions additions).ids := by
                rw [addNode_ids, noteNew]
                simp only [List.contains_iff_mem]
            _ = noteNew routine.id (addedIds additions).eraseDups := by rw [ih]
            _ = (addedIds additions ++ [routine.id]).eraseDups := noteNew_eraseDups _ _
      | edge edge =>
          rw [Addition.apply, addEdge_ids, ih]
          exact congrArg List.eraseDups (List.append_nil _).symm

theorem ofAdditions_filed (additions : List Addition) : ∀ entry ∈ (ofAdditions additions).nodes, entry.2.id = entry.1 := by
  induction additions using List.reverseRecOn with
  | nil => simp [ofAdditions, empty]
  | append_singleton additions addition ih =>
      rw [ofAdditions_append]
      cases addition with
      | node routine =>
          intro entry member
          rcases Table.mem_put member with rfl | member
          · rfl
          · exact ih entry member
      | edge edge =>
          rw [Addition.apply, addEdge_nodes]
          exact ih

theorem addNode_of_mem {graph : CallGraph} (coherent : graph.Coherent) (distinct : graph.ids.Nodup)
    {routine : Routine} (held : routine.id ∈ graph.ids) :
    graph.addNode routine =
      { graph with nodes := graph.nodes.map fun entry => if entry.1 = routine.id then (entry.1, routine) else entry } := by
  have callees : graph.callees.putNew routine.id [] = graph.callees := by
    apply Table.putNew_of_mem
    rwa [coherent.callees.1]
  have callers : graph.callers.putNew routine.id [] = graph.callers := by
    apply Table.putNew_of_mem
    rwa [coherent.callers.1]
  rw [addNode, callees, callers, Table.put_of_mem held distinct]

theorem foldl_apply_edges (additions : List Addition) : ∀ (graph : CallGraph) (known : List String),
    (∀ id, id ∈ known ↔ id ∈ graph.ids) →
      (additions.foldl Addition.apply graph).edges = graph.edges ++ settledEdges known additions := by
  induction additions with
  | nil => simp [settledEdges]
  | cons addition rest ih =>
      intro graph known same
      rw [List.foldl_cons]
      cases addition with
      | node routine =>
          apply ih
          intro id
          rw [Addition.apply, addNode_ids, List.mem_cons, same id]
          split
          · rename_i held
            exact ⟨fun either => either.elim (· ▸ held) fun member => member, Or.inr⟩
          · rw [List.mem_append, List.mem_singleton, or_comm]
      | edge edge =>
          have kept : ∀ id, id ∈ known ↔ id ∈ (graph.addEdge edge).ids := by
            rwa [addEdge_ids]
          rw [ih (Addition.apply graph (.edge edge)) known kept, settledEdges, Addition.apply]
          by_cases both : edge.callerId ∈ known ∧ edge.calleeId ∈ known
          · rw [if_pos both, addEdge_eq ((same _).mp both.1) ((same _).mp both.2), List.append_assoc]
            rfl
          · rw [if_neg both]
            rw [same, same] at both
            rw [addEdge_of_unknown both]

/-- Whatever is added in whatever order, both indexes list what the edges say, an edge counts from when both of its
ends are known, and a routine that comes again takes the place of the one before it. -/
theorem ofAdditions_inStep (additions : List Addition) :
    (ofAdditions additions).InStep ∧ (ofAdditions additions).ids = (addedIds additions).eraseDups ∧
      (ofAdditions additions).edges = settledEdges [] additions := by
  have coherent := ofAdditions_coherent additions
  have distinct : (ofAdditions additions).ids.Nodup := by
    rw [ofAdditions_ids]
    exact nodup_eraseDups _
  refine ⟨?_, ofAdditions_ids additions, foldl_apply_edges additions empty [] (by simp [empty, ids, Table.keys])⟩
  constructor
  case distinct => exact distinct
  case filed => exact ofAdditions_filed additions
  case keys => exact ⟨coherent.callees.1, coherent.callers.1⟩
  case known => exact coherent.known
  case callees => exact coherent.callees.2
  case callers => exact coherent.callers.2
  case symmetric => exact mem_calleesOf_iff coherent
  case unknown => exact fun _ => addEdge_of_unknown
  case again => exact fun _ => addNode_of_mem coherent distinct

example :
    let plain (id name : String) : Routine := { id, name, file := "f", line := 1 }
    let graph := ofAdditions [.node (plain "a" "old"), .edge ⟨"a", "b", 2⟩, .node (plain "b" "b"), .edge ⟨"a", "b", 3⟩,
      .edge ⟨"a", "a", 4⟩, .edge ⟨"a", "b", 5⟩, .node (plain "a" "new")]
    graph.routines.map (·.name) = ["new", "b"] ∧ graph.edges.map (·.line) = [3, 4, 5] ∧
      graph.calleesOf "a" = ["b", "a"] ∧ graph.callersOf "a" = ["a"] := by
  decide

end FlowAtlas.CallGraph
