import FlowAtlas.CallGraph.Basic
import FlowAtlas.Proofs.Table
import Mathlib.Data.List.Induction

namespace FlowAtlas.CallGraph

def targets (edges : List CallEdge) (id : String) : List String :=
  (edges.filter fun edge => edge.callerId == id).map (·.calleeId)

def sources (edges : List CallEdge) (id : String) : List String :=
  (edges.filter fun edge => edge.calleeId == id).map (·.callerId)

/-- The index has an entry for each id, and in it each other end once, in order of first occurrence. -/
def Indexes (index : Table (List String)) (ids : List String) (ends : String → List String) : Prop :=
  index.keys = ids ∧ ∀ id, (index.get? id).getD [] = (ends id).eraseDups

structure Coherent (graph : CallGraph) : Prop where
  known : ∀ edge ∈ graph.edges, edge.callerId ∈ graph.ids ∧ edge.calleeId ∈ graph.ids
  callees : Indexes graph.callees graph.ids (targets graph.edges)
  callers : Indexes graph.callers graph.ids (sources graph.edges)

theorem noteNew_eraseDups (item : String) (items : List String) :
    noteNew item items.eraseDups = (items ++ [item]).eraseDups := by
  rw [noteNew, List.eraseDups_append]
  by_cases held : item ∈ items
  · simp [held, List.removeAll]
  · simp [held, List.removeAll, List.eraseDups_cons]

theorem nodup_eraseDups (items : List String) : items.eraseDups.Nodup := by
  induction items using List.reverseRecOn with
  | nil => simp
  | append_singleton items item ih =>
      rw [← noteNew_eraseDups, noteNew]
      split
      · exact ih
      · rename_i fresh
        refine List.nodup_append.mpr ⟨ih, by simp, ?_⟩
        intro first member second added same
        rw [List.mem_singleton.mp added] at same
        exact fresh (by simpa [same] using member)

theorem targets_append (edges : List CallEdge) (edge : CallEdge) (id : String) :
    targets (edges ++ [edge]) id = targets edges id ++ if edge.callerId = id then [edge.calleeId] else [] := by
  by_cases same : edge.callerId = id <;> simp [targets, same]

theorem sources_append (edges : List CallEdge) (edge : CallEdge) (id : String) :
    sources (edges ++ [edge]) id = sources edges id ++ if edge.calleeId = id then [edge.callerId] else [] := by
  by_cases same : edge.calleeId = id <;> simp [sources, same]

section indexes

variable {index : Table (List String)} {ids : List String} {ends : String → List String}

theorem indexes_putNew (indexes : Indexes index ids ends) (id : String) :
    Indexes (index.putNew id []) (if id ∈ ids then ids else ids ++ [id]) ends := by
  obtain ⟨rfl, listed⟩ := indexes
  split
  · rename_i held
    rw [Table.putNew_of_mem held]
    exact ⟨rfl, listed⟩
  · rename_i fresh
    rw [Table.putNew_of_notMem fresh]
    refine ⟨Table.keys_append _ _, ?_⟩
    intro other
    rw [← listed other, Table.get?_append, Table.get?_cons]
    cases index.get? other with
    | some items => rfl
    | none =>
        rw [Option.none_or]
        split <;> rfl

theorem indexes_adjust (indexes : Indexes index ids ends) {id : String} (held : id ∈ ids) (item : String)
    {more : String → List String}
    (added : ∀ other, more other = ends other ++ if id = other then [item] else []) :
    Indexes (index.adjust id (noteNew item)) ids more := by
  obtain ⟨rfl, listed⟩ := indexes
  refine ⟨Table.keys_adjust _, ?_⟩
  intro other
  rw [Table.get?_adjust, added other]
  by_cases same : id = other
  · obtain ⟨items, found⟩ := Option.ne_none_iff_exists'.mp (mt Table.get?_eq_none_iff.mp (not_not.mpr held))
    have before := listed id
    rw [found, Option.getD_some] at before
    subst same
    rw [found]
    simp only [if_true, Option.map_some, Option.getD_some]
    rw [before, noteNew_eraseDups]
  · have apart : ¬ other = id := fun equal => same equal.symm
    simp [same, apart, listed other]

end indexes

theorem empty_coherent : empty.Coherent :=
  ⟨by simp [empty], ⟨rfl, fun _ => rfl⟩, ⟨rfl, fun _ => rfl⟩⟩

theorem addNode_ids (graph : CallGraph) (routine : Routine) :
    (graph.addNode routine).ids = if routine.id ∈ graph.ids then graph.ids else graph.ids ++ [routine.id] :=
  Table.keys_put

theorem addNode_coherent {graph : CallGraph} (coherent : graph.Coherent) (routine : Routine) :
    (graph.addNode routine).Coherent := by
  have kept : ∀ id ∈ graph.ids, id ∈ (graph.addNode routine).ids := by
    intro id member
    rw [addNode_ids]
    split
    · exact member
    · exact List.mem_append_left _ member
  refine ⟨fun edge member => (coherent.known edge member).imp (kept _) (kept _), ?_, ?_⟩
  · rw [addNode_ids]
    exact indexes_putNew coherent.callees routine.id
  · rw [addNode_ids]
    exact indexes_putNew coherent.callers routine.id

theorem addEdge_eq {graph : CallGraph} {edge : CallEdge} (caller : edge.callerId ∈ graph.ids)
    (callee : edge.calleeId ∈ graph.ids) :
    graph.addEdge edge =
      { graph with
        edges := graph.edges ++ [edge]
        callees := graph.callees.adjust edge.callerId (noteNew edge.calleeId)
        callers := graph.callers.adjust edge.calleeId (noteNew edge.callerId) } := by
  have both : (graph.nodes.has edge.callerId && graph.nodes.has edge.calleeId) = true := by
    rw [Bool.and_eq_true, Table.has_iff, Table.has_iff]
    exact ⟨caller, callee⟩
  rw [addEdge, if_pos both]

theorem addEdge_of_unknown {graph : CallGraph} {edge : CallEdge}
    (unknown : ¬ (edge.callerId ∈ graph.ids ∧ edge.calleeId ∈ graph.ids)) : graph.addEdge edge = graph := by
  refine if_neg ?_
  rwa [Bool.and_eq_true, Table.has_iff, Table.has_iff]

theorem addEdge_coherent {graph : CallGraph} (coherent : graph.Coherent) (edge : CallEdge) :
    (graph.addEdge edge).Coherent := by
  by_cases known : edge.callerId ∈ graph.ids ∧ edge.calleeId ∈ graph.ids
  · rw [addEdge_eq known.1 known.2]
    refine ⟨?_, ?_, ?_⟩
    · intro other member
      rcases List.mem_append.mp member with member | member
      · exact coherent.known other member
      · rw [List.mem_singleton.mp member]
        exact known
    · exact indexes_adjust coherent.callees known.1 _ (targets_append graph.edges edge)
    · exact indexes_adjust coherent.callers known.2 _ (sources_append graph.edges edge)
  · rw [addEdge_of_unknown known]
    exact coherent

section coherent

variable {graph : CallGraph} (coherent : graph.Coherent) (id other : String)

include coherent

theorem calleesOf_nodup : (graph.calleesOf id).Nodup := by
  rw [calleesOf, coherent.callees.2 id]
  exact nodup_eraseDups _

theorem callersOf_nodup : (graph.callersOf id).Nodup := by
  rw [callersOf, coherent.callers.2 id]
  exact nodup_eraseDups _

theorem mem_calleesOf : other ∈ graph.calleesOf id ↔
    ∃ edge ∈ graph.edges, edge.callerId = id ∧ edge.calleeId = other := by
  rw [calleesOf, coherent.callees.2 id, List.mem_eraseDups]
  simp [targets, and_assoc]

theorem mem_callersOf : other ∈ graph.callersOf id ↔
    ∃ edge ∈ graph.edges, edge.calleeId = id ∧ edge.callerId = other := by
  rw [callersOf, coherent.callers.2 id, List.mem_eraseDups]
  simp [sources, and_assoc]

theorem mem_calleesOf_iff : other ∈ graph.calleesOf id ↔ id ∈ graph.callersOf other := by
  rw [mem_calleesOf coherent, mem_callersOf coherent]
  exact exists_congr fun edge => and_congr_right fun _ => and_comm

end coherent

end FlowAtlas.CallGraph
