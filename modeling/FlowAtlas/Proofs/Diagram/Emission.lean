import FlowAtlas.Proofs.Diagram.Flow
import FlowAtlas.Proofs.Diagram.Shown
import FlowAtlas.Proofs.Table

namespace FlowAtlas.Diagram

/-- The ways in which a node of a diagram comes about. -/
inductive Depicts (selected : List Routine) : Node → Prop where
  | start (id : String) (nobody : entryOf selected = none) : Depicts selected ⟨id, startLabel, .entry, .box, none⟩
  | entry (id : String) {routine : Routine} (first : entryOf selected = some routine) :
      Depicts selected ⟨id, Naming.title routine.name, .entry, .box, some routine.id⟩
  | initializer (id : String) {routine : Routine} (member : routine ∈ initializersOf selected) :
      Depicts selected ⟨id, Naming.title routine.name, .process, .box, some routine.id⟩
  | decision (id : String) {routine : Routine} (member : routine ∈ stepsOf selected)
      (decides : routine.hasDecisionLogic = true) :
      Depicts selected ⟨id, Chain.decisionLabel routine.name, .decision, .diamond, some routine.id⟩
  | alternative (id : String) : Depicts selected ⟨id, alternativeLabel, .process, .box, none⟩
  | step (id : String) {routine : Routine} {style : Style} (member : routine ∈ stepsOf selected)
      (passes : routine.hasDecisionLogic = false) (plain : style = .service ∨ style = .process) :
      Depicts selected ⟨id, Naming.title routine.name, style, .box, some routine.id⟩
  | result (id : String) : Depicts selected ⟨id, resultLabel, .result, .box, none⟩

section induction

variable {selected : List Routine} {layers : Table (List String)} {motive : Chain → Prop}

theorem chainOf_induction (start : motive (Chain.start (entryOf selected)))
    (initializer : ∀ chain, motive chain → ∀ routine ∈ initializersOf selected,
      motive (chain.hangInitializer routine))
    (step : ∀ chain, motive chain → ∀ routine ∈ stepsOf selected, motive (chain.hangStep layers routine))
    (result : ∀ chain, motive chain → motive (chain.hang resultLabel .result .box none)) :
    motive (chainOf selected layers) := by
  -- What holds of the entry and is kept by each part of the drawing holds of all of it.
  rw [chainOf]
  apply result
  apply List.foldlRecOn _ _ _ step
  exact List.foldlRecOn _ _ start initializer

theorem chainOf_keeps (start : ∀ entry, motive (Chain.start entry))
    (hang : ∀ chain label style shape routineId, motive chain → motive (chain.hang label style shape routineId))
    (branch : ∀ chain, motive chain → motive chain.branch) : motive (chainOf selected layers) := by
  apply chainOf_induction (start _)
  · intro chain held routine _
    exact hang chain _ _ _ _ held
  · intro chain held routine _
    rw [Chain.hangStep]
    split
    · exact branch _ (hang chain _ _ _ _ held)
    · exact hang chain _ _ _ _ held
  · intro chain held
    exact hang chain _ _ _ _ held

end induction

theorem Chain.forall_hang {chain : Chain} {holds : Node → Prop} (held : ∀ node ∈ chain.nodes, holds node)
    {label : String} {style : Style} {shape : Shape} {routineId : Option String}
    (new : holds ⟨chain.nextId, label, style, shape, routineId⟩) :
    ∀ node ∈ (chain.hang label style shape routineId).nodes, holds node :=
  List.forall_mem_append.mpr ⟨held, List.forall_mem_singleton.mpr new⟩

theorem Chain.forall_branch {chain : Chain} {holds : Node → Prop} (held : ∀ node ∈ chain.nodes, holds node)
    (new : holds ⟨chain.nextId, alternativeLabel, .process, .box, none⟩) :
    ∀ node ∈ chain.branch.nodes, holds node :=
  List.forall_mem_append.mpr ⟨held, List.forall_mem_singleton.mpr new⟩

theorem depicts_nodes (selected : List Routine) (layers : Table (List String)) :
    ∀ node ∈ (ofSelection selected layers).nodes, Depicts selected node := by
  apply chainOf_induction (motive := fun chain => ∀ node ∈ chain.nodes, Depicts selected node)
  · cases found : entryOf selected with
    | none => exact List.forall_mem_singleton.mpr (.start _ found)
    | some routine => exact List.forall_mem_singleton.mpr (.entry _ found)
  · intro chain held routine member
    exact Chain.forall_hang held (.initializer _ member)
  · intro chain held routine member
    rw [Chain.hangStep]
    split
    · rename_i decides
      exact Chain.forall_branch (Chain.forall_hang held (.decision _ member decides)) (.alternative _)
    · rename_i passes
      apply Chain.forall_hang held
      exact .step _ member (Bool.eq_false_iff.mpr passes) (ite_eq_or_eq _ _ _)
  · intro chain held
    exact Chain.forall_hang held (.result _)

namespace Chain

variable {chain : Chain}

/-- Nodes have their names in order, edges lead from node to node, and a routine is filed under its node. -/
structure Filed (chain : Chain) : Prop where
  named : chain.nodes.map (·.id) = (List.range chain.nodes.length).map nodeId
  last : chain.last ∈ chain.nodes.map (·.id)
  ends : ∀ edge ∈ chain.edges, edge.source ∈ chain.nodes.map (·.id) ∧ edge.target ∈ chain.nodes.map (·.id)
  known : ∀ entry ∈ chain.places, entry.2 ∈ chain.nodes.map (·.id)
  placed : (routineIds chain.nodes).Nodup → ∀ node ∈ chain.nodes, ∀ routineId, node.routineId = some routineId →
    chain.places.get? routineId = some node.id

theorem start_filed (entry : Option Routine) : (start entry).Filed := by
  cases entry with
  | none =>
      constructor
      case named => rfl
      case last => exact List.mem_singleton_self _
      case ends => exact nofun
      case known => exact nofun
      case placed =>
        intro _ node member routineId called
        rw [List.mem_singleton.mp member] at called
        cases called
  | some routine =>
      constructor
      case named => rfl
      case last => exact List.mem_singleton_self _
      case ends => exact nofun
      case known => exact List.forall_mem_singleton.mpr (List.mem_singleton_self _)
      case placed =>
        intro _ node member routineId called
        rw [List.mem_singleton.mp member] at called ⊢
        rw [← Option.some.inj called]
        exact List.lookup_cons_self

theorem Filed.add (filed : chain.Filed) (node : Node) (next : node.id = chain.nextId) (label : Option String) :
    let nodes := chain.nodes ++ [node]
    nodes.map (·.id) = (List.range nodes.length).map nodeId ∧ node.id ∈ nodes.map (·.id) ∧
      (∀ edge ∈ chain.edges ++ [Edge.mk chain.last node.id label],
        edge.source ∈ nodes.map (·.id) ∧ edge.target ∈ nodes.map (·.id)) ∧
      chain.nodes.map (·.id) ⊆ nodes.map (·.id) := by
  intro nodes
  have ids : nodes.map (·.id) = chain.nodes.map (·.id) ++ [node.id] := List.map_append
  have kept : chain.nodes.map (·.id) ⊆ nodes.map (·.id) := by
    rw [ids]
    exact List.subset_append_left _ _
  have here : node.id ∈ nodes.map (·.id) := by
    rw [ids]
    exact List.mem_append_right _ (List.mem_singleton_self _)
  refine ⟨?_, here, ?_, kept⟩
  · rw [ids, filed.named, next, List.length_append, List.length_singleton, List.range_succ, List.map_append]
    rfl
  · intro edge member
    rcases List.mem_append.mp member with before | added
    · exact (filed.ends edge before).imp (kept ·) (kept ·)
    · rw [List.mem_singleton.mp added]
      exact ⟨kept filed.last, here⟩

theorem Filed.hang (filed : chain.Filed) (label : String) (style : Style) (shape : Shape) (routineId : Option String) :
    (chain.hang label style shape routineId).Filed := by
  let node : Node := ⟨chain.nextId, label, style, shape, routineId⟩
  obtain ⟨named, here, ends, kept⟩ := filed.add node rfl chain.pending
  have shown := routineIds_hang chain label style shape routineId
  constructor
  case named => exact named
  case last => exact here
  case ends => exact ends
  case known =>
    intro entry member
    cases routineId with
    | none => exact kept (filed.known entry member)
    | some routineId =>
        rcases Table.mem_put member with rfl | before
        · exact here
        · exact kept (filed.known entry before)
  case placed =>
    rw [shown]
    intro distinct other member otherId called
    obtain ⟨before, -, apart⟩ := List.nodup_append.mp distinct
    rcases List.mem_append.mp member with old | new
    · have held := filed.placed before other old otherId called
      cases routineId with
      | none => exact held
      | some routineId =>
          have listed : otherId ∈ routineIds chain.nodes := List.mem_filterMap.mpr ⟨other, old, called⟩
          have differ : otherId ≠ routineId := apart otherId listed routineId (List.mem_singleton_self _)
          exact (Table.get?_put.trans (if_neg differ)).trans held
    · rw [List.mem_singleton.mp new] at called ⊢
      obtain rfl : routineId = some otherId := called
      exact Table.get?_put.trans (if_pos rfl)

theorem Filed.branch (filed : chain.Filed) : chain.branch.Filed := by
  let node : Node := { id := chain.nextId, label := alternativeLabel, style := .process }
  obtain ⟨named, here, ends, kept⟩ := filed.add node rfl (some "No")
  constructor
  case named => exact named
  case last => exact kept filed.last
  case ends => exact ends
  case known => exact fun entry member => kept (filed.known entry member)
  case placed =>
    rw [routineIds_branch]
    intro distinct other member otherId called
    rcases List.mem_append.mp member with old | new
    · exact filed.placed distinct other old otherId called
    · rw [List.mem_singleton.mp new] at called
      cases called

end Chain

theorem chainOf_filed (selected : List Routine) (layers : Table (List String)) : (chainOf selected layers).Filed :=
  chainOf_keeps Chain.start_filed (fun _ _ _ _ _ filed => filed.hang _ _ _ _) fun _ filed => filed.branch

theorem nodes_distinct (selected : List Routine) (layers : Table (List String)) :
    ((ofSelection selected layers).nodes.map (·.id)).Nodup := by
  have named := (chainOf_filed selected layers).named
  change ((chainOf selected layers).nodes.map (·.id)).Nodup
  rw [named]
  exact List.nodup_range.map nodeId_injective

end FlowAtlas.Diagram
