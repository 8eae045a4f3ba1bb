import FlowAtlas.Proofs.Classification
import FlowAtlas.Proofs.Diagram.Emission
import FlowAtlas.Proofs.Diagram.NodeOrder

namespace FlowAtlas.Diagram

/-- The first of the most important entry points; without an entry point the first routine selected. -/
def Leads (selected : List Routine) (entry : Routine) : Prop :=
  (entry.entryPoint = true ∧ ∃ front back, selected = front ++ entry :: back ∧
    (∀ other ∈ front, other.entryPoint = true → other.importance < entry.importance) ∧
    ∀ other ∈ back, other.entryPoint = true → other.importance ≤ entry.importance) ∨
  (∀ other ∈ selected, other.entryPoint = false) ∧ selected.head? = some entry

/-- The entry, and behind it the initializers and all others, both by descending importance, equals in the order of
the selection. -/
structure Parts (selected : List Routine) (entry : Option Routine) (initializers steps : List Routine) : Prop where
  nobody : entry = none ↔ selected = []
  leads : ∀ first, entry = some first → Leads selected first
  initializers : Ranking.Ranks
    (selected.filter fun routine => routine.isInitializer = true ∧ entry ≠ some routine) initializers
  steps : Ranking.Ranks
    (selected.filter fun routine => routine.isInitializer = false ∧ entry ≠ some routine) steps

def layerNodes (nodes : List Node) (selected : List Routine) (layers : Table (List String)) (label : String) :
    List Node :=
  nodes.filter fun node => node.routineId.any fun id =>
    selected.any fun routine => routine.id == id && routine.primaryLayer layers == label

/-- Where a diagram shows the routines of its parts. Node ids are those that its chain files routines under. -/
structure Shows (selected : List Routine) (layers : Table (List String)) (entry : Option Routine)
    (initializers steps : List Routine) (diagram : Diagram) : Prop where
  order : routineIds diagram.nodes = (entry.toList ++ (initializers ++ steps)).map (·.id)
  once : ∀ routine ∈ selected, ∃ node,
    (diagram.nodes.filter fun node => node.routineId == some routine.id) = [node] ∧
      (chainOf selected layers).places.get? routine.id = some node.id
  diamonds : ∀ node ∈ diagram.nodes, node.shape = .diamond ↔
    ∃ routine ∈ steps, node.routineId = some routine.id ∧ routine.hasDecisionLogic = true
  decisions : ∀ node ∈ diagram.nodes, node.style = .decision ↔ node.shape = .diamond
  layered : diagram.subgraphs =
    (Layer.labels.filter fun label =>
      2 ≤ (selected.filter fun routine => routine.primaryLayer layers == label).length).map fun label =>
        ⟨label, (layerNodes diagram.nodes selected layers label).map (·.id)⟩
  disjoint : diagram.subgraphs.Pairwise fun first second => first.nodeIds.Disjoint second.nodeIds
  routines : ∀ subgraph ∈ diagram.subgraphs, ∀ node ∈ diagram.nodes, node.id ∈ subgraph.nodeIds →
    ¬ node.IsAlternative ∧ node.style ≠ .result

section parts

variable {selected : List Routine}

theorem entryOf_eq_none_iff : entryOf selected = none ↔ selected = [] := by
  rw [entryOf, Option.or_eq_none_iff, List.head?_eq_none_iff]
  constructor
  · exact And.right
  · rintro rfl
    exact ⟨rfl, rfl⟩

theorem entryOf_leads {entry : Routine} (found : entryOf selected = some entry) : Leads selected entry := by
  have ranks := Ranking.rank_ranks selected
  rcases Option.or_eq_some_iff.mp found with important | ⟨none, first⟩
  · exact Or.inl ⟨List.find?_some important, ranks.find important⟩
  · refine Or.inr ⟨?_, first⟩
    intro other member
    have listed := ranks.perm.mem_iff.mpr member
    exact Bool.eq_false_iff.mpr (List.find?_eq_none.mp none other listed)

theorem entryOf_mem_selected {entry : Routine} (found : entryOf selected = some entry) : entry ∈ selected :=
  (Ranking.rank_ranks selected).perm.mem_iff.mp (entryOf_mem found)

variable (distinct : (selected.map (·.id)).Nodup)

include distinct

theorem eq_of_routineId {first second : Routine} (member : first ∈ selected) (among : second ∈ selected)
    (same : first.id = second.id) : first = second :=
  List.inj_on_of_nodup_map distinct member among same

theorem afterEntry_eq :
    afterEntry selected = (Ranking.rank selected).filter fun routine => entryOf selected ≠ some routine := by
  rw [afterEntry]
  cases found : entryOf selected with
  | none => simp
  | some entry =>
      apply List.filter_congr
      intro routine member
      have among : routine ∈ selected := (Ranking.rank_ranks selected).perm.mem_iff.mp member
      have same : routine.id = entry.id ↔ entry = routine :=
        ⟨fun equal => (eq_of_routineId distinct among (entryOf_mem_selected found) equal).symm, fun equal => equal ▸ rfl⟩
      rw [Bool.eq_iff_iff]
      simp [same]

theorem afterEntry_ranks (kind : Routine → Bool) :
    Ranking.Ranks (selected.filter fun routine => kind routine = true ∧ entryOf selected ≠ some routine)
      ((afterEntry selected).filter kind) := by
  have ranks := ((Ranking.rank_ranks selected).filter fun routine => entryOf selected ≠ some routine).filter kind
  rw [← afterEntry_eq distinct, List.filter_filter] at ranks
  simpa only [Bool.decide_and, Bool.decide_eq_true] using ranks

theorem parts_of_selection :
    Parts selected (entryOf selected) (initializersOf selected) (stepsOf selected) where
  nobody := entryOf_eq_none_iff
  leads := fun _ found => entryOf_leads found
  initializers := afterEntry_ranks distinct _
  steps := by
    have ranks := afterEntry_ranks distinct fun routine => !routine.isInitializer
    simp only [Bool.not_eq_true'] at ranks
    exact ranks

theorem mem_stepsOf {routine : Routine} (member : routine ∈ stepsOf selected) :
    routine ∈ selected ∧ routine.isInitializer = false ∧ entryOf selected ≠ some routine := by
  have listed := (parts_of_selection distinct).steps.perm.mem_iff.mp member
  simpa only [List.mem_filter, decide_eq_true_eq] using listed

theorem mem_initializersOf {routine : Routine} (member : routine ∈ initializersOf selected) :
    routine ∈ selected ∧ routine.isInitializer = true := by
  have listed := (parts_of_selection distinct).initializers.perm.mem_iff.mp member
  rw [List.mem_filter, decide_eq_true_eq] at listed
  exact ⟨listed.1, listed.2.1⟩

end parts

section nodes

variable {selected : List Routine} {node : Node} (depicts : Depicts selected node)

include depicts

theorem Depicts.decision_iff : node.style = .decision ↔ node.shape = .diamond := by
  cases depicts with
  | step _ _ _ plain => rcases plain with rfl | rfl <;> simp
  | _ => simp

theorem Depicts.of_result (ends : node.style = .result) : node.routineId = none := by
  cases depicts with
  | result => rfl
  | step _ _ _ plain => rcases plain with rfl | rfl <;> cases ends
  | _ => cases ends

theorem Depicts.diamond_iff (distinct : (selected.map (·.id)).Nodup) : node.shape = .diamond ↔
    ∃ routine ∈ stepsOf selected, node.routineId = some routine.id ∧ routine.hasDecisionLogic = true := by
  constructor
  · intro diamond
    cases depicts with
    | decision _ member decides => exact ⟨_, member, rfl, decides⟩
    | _ => cases diamond
  · rintro ⟨routine, member, called, decides⟩
    obtain ⟨among, other, behind⟩ := mem_stepsOf distinct member
    cases depicts with
    | decision => rfl
    | start | alternative | result => cases called
    | entry _ first =>
        have same := eq_of_routineId distinct (entryOf_mem_selected first) among (Option.some.inj called)
        exact absurd (same ▸ first) behind
    | initializer _ listed =>
        obtain ⟨held, prepares⟩ := mem_initializersOf distinct listed
        rw [eq_of_routineId distinct held among (Option.some.inj called), other] at prepares
        cases prepares
    | step _ listed passes =>
        have held := (mem_stepsOf distinct listed).1
        rw [eq_of_routineId distinct held among (Option.some.inj called), decides] at passes
        cases passes

end nodes

section layers

variable {selected : List Routine} (distinct : (selected.map (·.id)).Nodup) (layers : Table (List String))

theorem filterMap_places {nodes : List Node} {places : Table String}
    (filed : ∀ node ∈ nodes, ∀ id, node.routineId = some id → places.get? id = some node.id) (chosen : String → Bool) :
    ((routineIds nodes).filter chosen).filterMap places.get? =
      (nodes.filter fun node => node.routineId.any chosen).map (·.id) := by
  induction nodes with
  | nil => rfl
  | cons node rest ih =>
      have others := ih fun node member => filed node (List.mem_cons_of_mem _ member)
      rw [routineIds] at others
      cases called : node.routineId with
      | none => simpa [routineIds, called] using others
      | some id =>
          have here := filed node List.mem_cons_self id called
          by_cases kept : chosen id = true <;> simp [routineIds, called, kept, here, others]

include distinct

theorem routineIds_nodup : (routineIds (ofSelection selected layers).nodes).Nodup :=
  (ofSelection_routineIds distinct layers).nodup_iff.mpr distinct

theorem placed (node : Node) (member : node ∈ (ofSelection selected layers).nodes) (id : String)
    (called : node.routineId = some id) : (chainOf selected layers).places.get? id = some node.id :=
  (chainOf_filed selected layers).placed (routineIds_nodup distinct layers) node member id called

theorem node_of_routine {routine : Routine} (member : routine ∈ selected) : ∃ node,
    ((ofSelection selected layers).nodes.filter fun node => node.routineId == some routine.id) = [node] ∧
      (chainOf selected layers).places.get? routine.id = some node.id := by
  have listed : routine.id ∈ routineIds (ofSelection selected layers).nodes :=
    (ofSelection_routineIds distinct layers).mem_iff.mpr (List.mem_map_of_mem member)
  have once := List.count_eq_one_of_mem (routineIds_nodup distinct layers) listed
  rw [routineIds, List.count_filterMap, List.countP_eq_length_filter, List.length_eq_one_iff] at once
  obtain ⟨node, only⟩ := once
  obtain ⟨held, called⟩ := List.mem_filter.mp (only ▸ List.mem_singleton_self node)
  exact ⟨node, only, placed distinct layers node held routine.id (beq_iff_eq.mp called)⟩

theorem sortIds_layer (label : String) :
    sortIds ((selected.filter fun routine => routine.primaryLayer layers == label).filterMap fun routine =>
      (chainOf selected layers).places.get? routine.id) =
        (layerNodes (ofSelection selected layers).nodes selected layers label).map (·.id) := by
  let nodes := (ofSelection selected layers).nodes
  let places := (chainOf selected layers).places
  let chosen : String → Bool := fun id =>
    selected.any fun routine => routine.id == id && routine.primaryLayer layers == label
  have chooses : ∀ routine ∈ selected, chosen routine.id = (routine.primaryLayer layers == label) := by
    intro routine member
    rw [Bool.eq_iff_iff, List.any_eq_true]
    constructor
    · rintro ⟨other, among, both⟩
      rw [Bool.and_eq_true, beq_iff_eq] at both
      rw [← eq_of_routineId distinct among member both.1]
      exact both.2
    · intro here
      exact ⟨routine, member, by simpa using here⟩
  have asked : ((selected.filter fun routine => routine.primaryLayer layers == label).filterMap fun routine =>
      places.get? routine.id) = ((selected.map (·.id)).filter chosen).filterMap places.get? := by
    rw [List.filter_map, List.filterMap_map, ← List.filter_congr chooses]
    rfl
  have found : ((routineIds nodes).filter chosen).filterMap places.get? =
      (layerNodes nodes selected layers label).map (·.id) := filterMap_places (placed distinct layers) chosen
  have looked : (((selected.map (·.id)).filter chosen).filterMap places.get?).Perm
      (((routineIds nodes).filter chosen).filterMap places.get?) :=
    ((ofSelection_routineIds distinct layers).symm.filter chosen).filterMap _
  rw [← asked, found] at looked
  have named : nodes.map (·.id) = (List.range nodes.length).map nodeId := (chainOf_filed selected layers).named
  have within : ((layerNodes nodes selected layers label).map (·.id)).Sublist ((List.range nodes.length).map nodeId) := by
    rw [← named]
    exact List.filter_sublist.map _
  obtain ⟨drawn, ordered, same⟩ := List.sublist_map_iff.mp within
  rw [same] at looked
  exact (sortIds_eq looked (List.pairwise_lt_range.sublist ordered)).trans same.symm

theorem subgraphs_layered : (ofSelection selected layers).subgraphs =
    (Layer.labels.filter fun label =>
      2 ≤ (selected.filter fun routine => routine.primaryLayer layers == label).length).map fun label =>
        ⟨label, (layerNodes (ofSelection selected layers).nodes selected layers label).map (·.id)⟩ := by
  rw [← List.filterMap_eq_map, List.filterMap_filter]
  apply List.filterMap_congr
  intro label _
  rw [subgraphOf?]
  by_cases few : (selected.filter fun routine => routine.primaryLayer layers == label).length < 2
  · simp [few]
  · simp [few, Nat.le_of_not_lt few, sortIds_layer distinct layers label]

theorem layerNodes_disjoint {first second : String} (apart : first ≠ second) :
    ((layerNodes (ofSelection selected layers).nodes selected layers first).map (·.id)).Disjoint
      ((layerNodes (ofSelection selected layers).nodes selected layers second).map (·.id)) := by
  intro id inFirst inSecond
  obtain ⟨node, listed, rfl⟩ := List.mem_map.mp inFirst
  obtain ⟨other, among, same⟩ := List.mem_map.mp inSecond
  obtain ⟨held, ofFirst⟩ := List.mem_filter.mp listed
  obtain ⟨holds, ofSecond⟩ := List.mem_filter.mp among
  rw [List.inj_on_of_nodup_map (nodes_distinct selected layers) holds held same] at ofSecond
  cases called : node.routineId with
  | none =>
      rw [called] at ofFirst
      cases ofFirst
  | some routineId =>
      rw [called, Option.any_some, List.any_eq_true] at ofFirst ofSecond
      obtain ⟨routine, member, here⟩ := ofFirst
      obtain ⟨twin, within, there⟩ := ofSecond
      rw [Bool.and_eq_true, beq_iff_eq, beq_iff_eq] at here there
      rw [eq_of_routineId distinct within member (there.1.trans here.1.symm)] at there
      exact apart (here.2.symm.trans there.2)

end layers

/-- Any selection of different routines is drawn in three parts: the entry, the initializers and the steps, each
routine at one node. Decisions are steps, and a layer with two routines or more has a subgraph of its own. -/
theorem ofSelection_shows {selected : List Routine} (distinct : (selected.map (·.id)).Nodup)
    (layers : Table (List String)) :
    ∃ entry initializers steps, Parts selected entry initializers steps ∧
      Shows selected layers entry initializers steps (ofSelection selected layers) := by
  have layered := subgraphs_layered distinct layers
  have depicts := depicts_nodes selected layers
  refine ⟨_, _, _, parts_of_selection distinct, ?_⟩
  constructor
  case order => exact routineIds_ofSelection selected layers
  case once => exact fun routine member => node_of_routine distinct layers member
  case diamonds => exact fun node member => (depicts node member).diamond_iff distinct
  case decisions => exact fun node member => (depicts node member).decision_iff
  case layered => exact layered
  case disjoint =>
    rw [layered]
    apply List.pairwise_map.mpr
    exact (Layer.labels_nodup.filter _).imp fun apart => layerNodes_disjoint distinct layers apart
  case routines =>
    intro subgraph listed node member held
    rw [layered] at listed
    obtain ⟨label, -, rfl⟩ := List.mem_map.mp listed
    obtain ⟨other, among, same⟩ := List.mem_map.mp held
    obtain ⟨drawn, called⟩ := List.mem_filter.mp among
    rw [List.inj_on_of_nodup_map (nodes_distinct selected layers) drawn member same] at called
    have someone : node.routineId ≠ none := by
      intro none
      rw [none] at called
      cases called
    exact ⟨fun alternative => someone alternative.2, fun ends => someone ((depicts node member).of_result ends)⟩

theorem ofSelection_shows_crowded :
    let plain (name : String) : Routine := { id := name, name, file := "f", line := 1, layer := some "Services" }
    let checks := ["checkA", "checkB", "checkC", "checkD", "checkE", "checkF", "checkG", "checkH", "checkI", "checkJ",
      "checkK", "checkL", "checkM", "checkN"]
    let selected : List Routine := { plain "loadAll" with importance := 9 } ::
      { plain "main" with entryPoint := true, importance := 5 } ::
      { plain "run" with entryPoint := true, importance := 5 } :: checks.map plain
    (selected.map (·.id)).Nodup ∧ ∃ entry initializers steps, Parts selected entry initializers steps ∧
      Shows selected [] entry initializers steps (ofSelection selected []) := by
  intro plain checks selected
  have distinct : (selected.map (·.id)).Nodup := by decide
  exact ⟨distinct, ofSelection_shows distinct []⟩

end FlowAtlas.Diagram
