import FlowAtlas.CallGraph.Resolution
import FlowAtlas.Proofs.CallGraph.Coherence
import Mathlib.Data.List.Forall2

/-! Resolution by name: edges, incoming calls and both indexes are one relation. -/

namespace FlowAtlas

namespace Link

theorem mem_all {routines : List Routine} {link : Link} :
    link ∈ all routines ↔ link.caller ∈ routines ∧ link.callee ∈ routines ∧
      ∃ call ∈ link.caller.outgoing, call.callee = link.callee.name ∧ call.line = link.line := by
  obtain ⟨caller, callee, line⟩ := link
  simp only [all, List.mem_flatMap, List.mem_map, List.mem_filter, beq_iff_eq, Link.mk.injEq]
  constructor
  · rintro ⟨_, held, call, made, _, ⟨among, named⟩, rfl, rfl, rfl⟩
    exact ⟨held, among, call, made, named.symm, rfl⟩
  · rintro ⟨held, among, call, made, named, rfl⟩
    exact ⟨caller, held, call, made, callee, ⟨among, named.symm⟩, rfl, rfl, rfl⟩

theorem all_map (routines : List Routine) (change : Routine → Routine)
    (name : ∀ routine, (change routine).name = routine.name)
    (outgoing : ∀ routine, (change routine).outgoing = routine.outgoing) :
    all (routines.map change) =
      (all routines).map fun link => ⟨change link.caller, change link.callee, link.line⟩ := by
  have callees : ∀ text, (routines.map change).filter (fun callee => callee.name == text) =
      (routines.filter fun callee => callee.name == text).map change := by
    intro text
    rw [List.filter_map]
    congr 2
    funext routine
    simp [name]
  simp only [all, List.flatMap_map, List.map_flatMap, List.map_map, outgoing, callees]
  rfl

end Link

namespace CallGraph

theorem foldl_addNode (routines : List Routine) : ∀ graph : CallGraph,
    (graph.ids ++ routines.map (·.id)).Nodup →
      (routines.foldl addNode graph).nodes = graph.nodes ++ routines.map (fun routine => (routine.id, routine)) ∧
      (routines.foldl addNode graph).edges = graph.edges := by
  induction routines with
  | nil => simp
  | cons routine rest ih =>
      intro graph distinct
      have fresh : routine.id ∉ graph.ids := by
        intro held
        exact (List.nodup_append.mp distinct).2.2 _ held _ List.mem_cons_self rfl
      have nodes : (graph.addNode routine).nodes = graph.nodes ++ [(routine.id, routine)] :=
        Table.put_of_notMem fresh
      have ids : (graph.addNode routine).ids = graph.ids ++ [routine.id] := by
        rw [addNode_ids, if_neg fresh]
      obtain ⟨later, edges⟩ := ih (graph.addNode routine) (by simpa [ids] using distinct)
      refine ⟨?_, edges⟩
      rw [List.foldl_cons, later, nodes]
      simp

theorem foldl_addNode_coherent (routines : List Routine) : ∀ graph : CallGraph, graph.Coherent →
    (routines.foldl addNode graph).Coherent := by
  induction routines with
  | nil => exact fun _ coherent => coherent
  | cons routine rest ih => exact fun graph coherent => ih _ (addNode_coherent coherent routine)

theorem foldl_addEdge (edges : List CallEdge) : ∀ graph : CallGraph,
    (∀ edge ∈ edges, edge.callerId ∈ graph.ids ∧ edge.calleeId ∈ graph.ids) →
      (edges.foldl addEdge graph).nodes = graph.nodes ∧
      (edges.foldl addEdge graph).edges = graph.edges ++ edges := by
  induction edges with
  | nil => simp
  | cons edge rest ih =>
      intro graph known
      have first := addEdge_eq (known edge List.mem_cons_self).1 (known edge List.mem_cons_self).2
      have later : ∀ other ∈ rest, other.callerId ∈ (graph.addEdge edge).ids ∧
          other.calleeId ∈ (graph.addEdge edge).ids := by
        rw [first]
        exact fun other member => known other (List.mem_cons_of_mem _ member)
      obtain ⟨nodes, all⟩ := ih (graph.addEdge edge) later
      rw [List.foldl_cons, nodes, all, first]
      simp

theorem foldl_addEdge_coherent (edges : List CallEdge) : ∀ graph : CallGraph, graph.Coherent →
    (edges.foldl addEdge graph).Coherent := by
  induction edges with
  | nil => exact fun _ coherent => coherent
  | cons edge rest ih => exact fun graph coherent => ih _ (addEdge_coherent coherent edge)

theorem ofRoutines_eq (routines : List Routine) :
    ofRoutines routines =
      ((Link.all routines).map Link.edge).foldl addEdge
        ((routines.map fun routine => routine.withIncoming (Link.all routines)).foldl addNode empty) := by
  rw [List.foldl_map, List.foldl_map]
  rfl

theorem ofRoutines_coherent (routines : List Routine) : (ofRoutines routines).Coherent := by
  rw [ofRoutines_eq]
  exact foldl_addEdge_coherent _ _ (foldl_addNode_coherent _ _ empty_coherent)

section distinct

variable {routines : List Routine} (distinct : (routines.map (·.id)).Nodup)

include distinct

theorem ofRoutines_parts :
    (ofRoutines routines).nodes =
        routines.map (fun routine => (routine.id, routine.withIncoming (Link.all routines))) ∧
      (ofRoutines routines).edges = (Link.all routines).map Link.edge := by
  let resolved := routines.map fun routine => routine.withIncoming (Link.all routines)
  have ids : resolved.map (·.id) = routines.map (·.id) := by
    simp [resolved, Routine.withIncoming]
  have fresh : (empty.ids ++ resolved.map (·.id)).Nodup := by
    simpa [ids, empty, CallGraph.ids, Table.keys] using distinct
  obtain ⟨nodes, none⟩ := foldl_addNode resolved empty fresh
  have keys : (resolved.foldl addNode empty).ids = routines.map (·.id) := by
    rw [← ids, CallGraph.ids, nodes]
    simp [empty, Table.keys]
  have known : ∀ edge ∈ (Link.all routines).map Link.edge,
      edge.callerId ∈ (resolved.foldl addNode empty).ids ∧ edge.calleeId ∈ (resolved.foldl addNode empty).ids := by
    intro edge member
    obtain ⟨link, linked, rfl⟩ := List.mem_map.mp member
    obtain ⟨caller, callee, _⟩ := Link.mem_all.mp linked
    rw [keys]
    exact ⟨List.mem_map_of_mem caller, List.mem_map_of_mem callee⟩
  obtain ⟨kept, edges⟩ := foldl_addEdge _ _ known
  rw [ofRoutines_eq]
  refine ⟨?_, ?_⟩
  · rw [kept, nodes]
    simp [resolved, empty, Routine.withIncoming]
  · rw [edges, none]
    rfl

theorem ofRoutines_routines :
    (ofRoutines routines).routines = routines.map fun routine => routine.withIncoming (Link.all routines) := by
  rw [CallGraph.routines, (ofRoutines_parts distinct).1, List.map_map]
  rfl

end distinct

def Tells (routines : List Routine) (call : IncomingCall) (edge : CallEdge) : Prop :=
  ∃ caller ∈ routines, caller.id = edge.callerId ∧ call = ⟨caller.id, caller.name, caller.file, edge.line⟩

/-- What resolution makes of a list of routines. -/
structure Resolves (routines : List Routine) (graph : CallGraph) : Prop where
  edges : graph.edges = routines.flatMap fun caller => caller.outgoing.flatMap fun call =>
    (routines.filter fun target => target.name == call.callee).map fun target =>
      ⟨caller.id, target.id, call.line⟩
  incoming : ∀ routine ∈ graph.routines, List.Forall₂ (Tells routines) routine.incoming
    (graph.edges.filter fun edge => edge.calleeId == routine.id)
  unchanged : (graph.routines.map fun routine => { routine with incoming := [] }) =
    routines.map fun routine => { routine with incoming := [] }
  keys : graph.ids = routines.map (·.id)
  symmetric : ∀ first second, second ∈ graph.calleesOf first ↔ first ∈ graph.callersOf second
  named : ∀ caller ∈ routines, ∀ callee ∈ routines, callee.id ∈ graph.calleesOf caller.id ↔
    ∃ call ∈ caller.outgoing, call.callee = callee.name
  ends : ∀ first second, second ∈ graph.calleesOf first →
    first ∈ routines.map (·.id) ∧ second ∈ routines.map (·.id)
  single : ∀ id, (graph.calleesOf id).Nodup ∧ (graph.callersOf id).Nodup
  stable : ofRoutines graph.routines = graph

theorem withIncoming_twice (routines : List Routine) (routine : Routine) :
    let resolve := fun routine : Routine => routine.withIncoming (Link.all routines)
    (resolve routine).withIncoming (Link.all (routines.map resolve)) = resolve routine := by
  intro resolve
  rw [Link.all_map routines resolve (fun _ => rfl) fun _ => rfl]
  simp only [resolve, Routine.withIncoming, List.filter_map, List.map_map, Routine.mk.injEq, true_and, and_true]
  rfl

theorem ofRoutines_stable {routines : List Routine} (distinct : (routines.map (·.id)).Nodup) :
    ofRoutines (ofRoutines routines).routines = ofRoutines routines := by
  let resolve := fun routine : Routine => routine.withIncoming (Link.all routines)
  have edges : (Link.all (routines.map resolve)).map Link.edge = (Link.all routines).map Link.edge := by
    rw [Link.all_map routines resolve (fun _ => rfl) fun _ => rfl, List.map_map]
    rfl
  have nodes : (routines.map resolve).map (fun routine => routine.withIncoming (Link.all (routines.map resolve))) =
      routines.map resolve := by
    rw [List.map_map]
    exact List.map_congr_left fun routine _ => withIncoming_twice routines routine
  rw [ofRoutines_routines distinct, ofRoutines_eq (routines.map _), edges, nodes, ← ofRoutines_eq]

theorem withIncoming_tells (routines : List Routine) (routine : Routine) :
    List.Forall₂ (Tells routines) (routine.withIncoming (Link.all routines)).incoming
      (((Link.all routines).map Link.edge).filter fun edge => edge.calleeId == routine.id) := by
  rw [List.filter_map, Routine.withIncoming, List.forall₂_map_left_iff, List.forall₂_map_right_iff]
  refine List.forall₂_same.mpr ?_
  intro link member
  obtain ⟨held, _⟩ := Link.mem_all.mp (List.mem_filter.mp member).1
  exact ⟨link.caller, held, rfl, rfl⟩

theorem mem_edges_ofRoutines {routines : List Routine} (distinct : (routines.map (·.id)).Nodup)
    (first second : String) :
    (∃ edge ∈ (ofRoutines routines).edges, edge.callerId = first ∧ edge.calleeId = second) ↔
      ∃ caller ∈ routines, ∃ callee ∈ routines, caller.id = first ∧ callee.id = second ∧
        ∃ call ∈ caller.outgoing, call.callee = callee.name := by
  rw [(ofRoutines_parts distinct).2]
  constructor
  · rintro ⟨_, member, rfl, rfl⟩
    obtain ⟨link, linked, rfl⟩ := List.mem_map.mp member
    obtain ⟨caller, callee, call, made, named, _⟩ := Link.mem_all.mp linked
    exact ⟨_, caller, _, callee, rfl, rfl, call, made, named⟩
  · rintro ⟨caller, held, callee, among, rfl, rfl, call, made, named⟩
    have linked : (⟨caller, callee, call.line⟩ : Link) ∈ Link.all routines :=
      Link.mem_all.mpr ⟨held, among, call, made, named, rfl⟩
    exact ⟨_, List.mem_map_of_mem linked, rfl, rfl⟩

theorem mem_calleesOf_ofRoutines {routines : List Routine} (distinct : (routines.map (·.id)).Nodup)
    (first second : String) :
    second ∈ (ofRoutines routines).calleesOf first ↔
      ∃ caller ∈ routines, ∃ callee ∈ routines, caller.id = first ∧ callee.id = second ∧
        ∃ call ∈ caller.outgoing, call.callee = callee.name := by
  rw [mem_calleesOf (ofRoutines_coherent routines), mem_edges_ofRoutines distinct]

/-- Resolution links each call with every routine of the called name, and all views of the links agree. -/
theorem ofRoutines_resolves {routines : List Routine} (distinct : (routines.map (·.id)).Nodup) :
    Resolves routines (ofRoutines routines) where
  edges := by
    rw [(ofRoutines_parts distinct).2]
    simp only [Link.all, List.map_flatMap, List.map_map]
    rfl
  incoming := by
    intro routine member
    rw [ofRoutines_routines distinct] at member
    obtain ⟨before, _, rfl⟩ := List.mem_map.mp member
    rw [(ofRoutines_parts distinct).2]
    exact withIncoming_tells routines before
  unchanged := by
    rw [ofRoutines_routines distinct, List.map_map]
    rfl
  keys := by
    rw [ids, (ofRoutines_parts distinct).1, Table.keys, List.map_map]
    rfl
  symmetric := by
    intro first second
    rw [mem_calleesOf (ofRoutines_coherent routines), mem_callersOf (ofRoutines_coherent routines)]
    exact exists_congr fun edge => and_congr_right fun _ => and_comm
  named := by
    intro caller held callee among
    rw [mem_calleesOf_ofRoutines distinct]
    constructor
    · rintro ⟨other, found, target, known, sameCaller, sameCallee, calls⟩
      have caller_eq : other = caller := List.inj_on_of_nodup_map distinct found held sameCaller
      have callee_eq : target = callee := List.inj_on_of_nodup_map distinct known among sameCallee
      rwa [caller_eq, callee_eq] at calls
    · intro calls
      exact ⟨caller, held, callee, among, rfl, rfl, calls⟩
  ends := by
    intro first second member
    obtain ⟨caller, held, callee, among, rfl, rfl, _⟩ := (mem_calleesOf_ofRoutines distinct _ _).mp member
    exact ⟨List.mem_map_of_mem held, List.mem_map_of_mem among⟩
  single := fun id =>
    ⟨calleesOf_nodup (ofRoutines_coherent routines) id, callersOf_nodup (ofRoutines_coherent routines) id⟩
  stable := ofRoutines_stable distinct

theorem ofRoutines_resolves_recursive :
    let walk : Routine := { id := "a:walk", name := "walk", file := "a", line := 1,
                            outgoing := [⟨"walk", 2⟩, ⟨"step", 3⟩, ⟨"lost", 4⟩, ⟨"step", 5⟩] }
    let step : Routine := { id := "a:step", name := "step", file := "a", line := 7,
                            incoming := [⟨"x", "x", "x", 1⟩] }
    let other : Routine := { id := "b:step", name := "step", file := "b", line := 1,
                             outgoing := [⟨"walk", 2⟩] }
    ([walk, step, other].map (·.id)).Nodup ∧
      Resolves [walk, step, other] (ofRoutines [walk, step, other]) := by
  intro walk step other
  have distinct : ([walk, step, other].map (·.id)).Nodup := by decide
  exact ⟨distinct, ofRoutines_resolves distinct⟩

end CallGraph

end FlowAtlas
