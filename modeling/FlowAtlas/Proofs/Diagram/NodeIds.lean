import FlowAtlas.Proofs.Diagram.Emission
import FlowAtlas.Proofs.Diagram.NodeOrder

namespace FlowAtlas

namespace Diagram

section letters

theorem letter_range {c : Char} (upper : c.isUpper = true) : 65 ≤ c.toNat ∧ c.toNat ≤ 90 :=
  of_decide_eq_true upper

theorem isUpper_letter (place : Nat) : (Char.ofNat (65 + place % 26)).isUpper = true := by
  have letters : ∀ place < 26, (Char.ofNat (65 + place)).isUpper = true := by decide
  exact letters _ (Nat.mod_lt _ (by decide))

theorem isUpper_of_mem_lettersReversed (count : Nat) : ∀ c ∈ lettersReversed count, c.isUpper = true := by
  induction count using lettersReversed.induct with
  | case1 =>
      rw [lettersReversed, if_pos rfl]
      exact List.forall_mem_nil _
  | case2 count given ih =>
      rw [lettersReversed, if_neg given, List.forall_mem_cons]
      exact ⟨isUpper_letter _, ih⟩

theorem lettersReversed_countOf (s : List Char) (capitals : ∀ c ∈ s, c.isUpper = true) :
    lettersReversed (countOf s) = s := by
  -- Capitals are the letters of their count. By induction from the last letter on, which the count gives back as its
  -- remainder: there is no letter for zero, so a carry goes to the letter in front only behind a Z.
  induction s with
  | nil => rw [countOf, lettersReversed, if_pos rfl]
  | cons c rest ih =>
      have range := letter_range (capitals c List.mem_cons_self)
      have given : countOf (c :: rest) ≠ 0 := by
        rw [countOf]
        omega
      have last : 65 + (countOf (c :: rest) - 1) % 26 = c.toNat := by
        rw [countOf]
        omega
      have front : (countOf (c :: rest) - 1) / 26 = countOf rest := by
        rw [countOf]
        omega
      rw [lettersReversed, if_neg given, last, Char.ofNat_toNat, front]
      rw [ih fun d member => capitals d (List.mem_cons_of_mem c member)]

theorem nodeId_ne_empty (place : Nat) : nodeId place ≠ "" := by
  intro empty
  have none : (nodeId place).toList = [] := by rw [empty]; rfl
  rw [nodeId_toList, letters_succ] at none
  simp at none

theorem existsUnique_nodeId (id : String) :
    (∃! place, nodeId place = id) ↔ id ≠ "" ∧ ∀ c ∈ id.toList, c.isUpper = true := by
  constructor
  · intro found
    rcases found with ⟨place, named, -⟩
    rw [← named]
    refine ⟨nodeId_ne_empty place, ?_⟩
    intro c member
    rw [nodeId_toList, List.mem_reverse] at member
    exact isUpper_of_mem_lettersReversed _ c member
  · intro written
    have capitals : ∀ c ∈ id.toList.reverse, c.isUpper = true := by
      intro c member
      exact written.2 c (List.mem_reverse.mp member)
    have spelled : idOfCount (countOf id.toList.reverse) = id := by
      rw [idOfCount, lettersReversed_countOf _ capitals, List.reverse_reverse, String.ofList_toList]
    cases count : countOf id.toList.reverse with
    | zero =>
        rw [count, idOfCount, lettersReversed, if_pos rfl] at spelled
        exact absurd spelled.symm written.1
    | succ place =>
        rw [count] at spelled
        refine ⟨place, spelled, ?_⟩
        intro other named
        exact nodeId_injective (named.trans spelled.symm)

end letters

section sorting

theorem sortIds_places (places : List Nat) : ∃ ordered : List Nat, ordered.Perm places ∧
    ordered.Pairwise (· ≤ ·) ∧ sortIds (places.map nodeId) = ordered.map nodeId :=
  ⟨_, List.perm_insertionSort _ _, List.pairwise_insertionSort _ _, sortIds_map places⟩

def DrawnInOrder (nodes : List Node) (ids : List String) : Prop :=
  ∃ places : List Nat, places.Pairwise (· ≤ ·) ∧ ids.map some = places.map fun place => nodes[place]?.map (·.id)

theorem sortIds_drawnInOrder {nodes : List Node} (named : nodes.map (·.id) = (List.range nodes.length).map nodeId)
    {ids : List String} (known : ∀ id ∈ ids, id ∈ nodes.map (·.id)) : DrawnInOrder nodes (sortIds ids) := by
  have stands : ∀ place < nodes.length, some (nodeId place) = nodes[place]?.map (·.id) := by
    intro place drawn
    rw [← List.getElem?_map, named, List.getElem?_map, List.getElem?_range drawn]
    rfl
  have placed : ∀ id ∈ ids, ∃ place < nodes.length, nodeId place = id := by
    intro id listed
    have drawn := known id listed
    rw [named] at drawn
    simpa using drawn
  choose! placeOf within called using placed
  have whole : (ids.map placeOf).map nodeId = ids := by
    rw [List.map_map]
    exact (List.map_congr_left called).trans (List.map_id ids)
  rcases sortIds_places (ids.map placeOf) with ⟨ordered, same, ascending, sorted⟩
  rw [whole] at sorted
  refine ⟨ordered, ascending, ?_⟩
  rw [sorted, List.map_map]
  apply List.map_congr_left
  intro place member
  rcases List.mem_map.mp (same.mem_iff.mp member) with ⟨id, listed, rfl⟩
  exact stands _ (within id listed)

end sorting

/-- The ids that the selected routines of a layer are filed under. -/
def filedIds (selected : List Routine) (layers : Table (List String)) (label : String) : List String :=
  (selected.filter fun routine => routine.primaryLayer layers == label).filterMap fun routine =>
    (chainOf selected layers).places.get? routine.id

theorem subgraph_sorted {selected : List Routine} {layers : Table (List String)} {subgraph : Subgraph}
    (member : subgraph ∈ (ofSelection selected layers).subgraphs) :
    subgraph.nodeIds = sortIds (filedIds selected layers subgraph.layer) := by
  rcases List.mem_filterMap.mp member with ⟨label, -, found⟩
  rw [subgraphOf?] at found
  split at found
  · cases found
  · rw [← Option.some.inj found]
    rfl

/-- By length and then by the alphabet ids are in the order of their places; each text of capitals is the id of one
place, and nothing else is an id. To sort ids is therefore to put their places in order, and the ids of a subgraph stand
in the order in which their nodes are drawn. -/
theorem nodeId_isomorphism :
    (∀ first second, List.Shortlex (· < ·) (nodeId first).toList (nodeId second).toList ↔ first < second) ∧
      (∀ id : String, (∃! place, nodeId place = id) ↔ id ≠ "" ∧ ∀ c ∈ id.toList, c.isUpper = true) ∧
      (∀ places : List Nat, ∃ ordered : List Nat, ordered.Perm places ∧ ordered.Pairwise (· ≤ ·) ∧
        sortIds (places.map nodeId) = ordered.map nodeId) ∧
      ∀ selected layers, ∀ subgraph ∈ (ofSelection selected layers).subgraphs,
        subgraph.nodeIds.Perm (filedIds selected layers subgraph.layer) ∧
          DrawnInOrder (ofSelection selected layers).nodes subgraph.nodeIds := by
  refine ⟨shortlex_nodeId, existsUnique_nodeId, sortIds_places, ?_⟩
  intro selected layers subgraph member
  rw [subgraph_sorted member]
  refine ⟨sortIds_perm _, ?_⟩
  have filed := chainOf_filed selected layers
  apply sortIds_drawnInOrder filed.named
  intro id listed
  rcases List.mem_filterMap.mp listed with ⟨routine, -, found⟩
  exact filed.known _ (Table.mem_of_get? found)

/-- Ids on both sides of a carry, and the subgraph of fourteen checks: they are selected before the entry, and their
nodes, with an alternative behind each, go beyond Z. -/
theorem nodeId_isomorphism_carries :
    let plain (name : String) : Routine := { id := name, name, file := "f", line := 1, layer := some "Services" }
    let checks := ["checkA", "checkB", "checkC", "checkD", "checkE", "checkF", "checkG", "checkH", "checkI", "checkJ",
      "checkK", "checkL", "checkM", "checkN"]
    let selected : List Routine := checks.map plain ++ [{ plain "main" with entryPoint := true, importance := 5 }]
    let ids := ["A", "B", "D", "F", "H", "J", "L", "N", "P", "R", "T", "V", "X", "Z", "AB"]
    let subgraph : Subgraph := ⟨"Services", ids⟩
    (nodeId 701 = "ZZ" ∧ nodeId 702 = "AAA") ∧
      List.Shortlex (· < ·) (nodeId 701).toList (nodeId 702).toList ∧
      (∃! place, nodeId place = "ZZZ") ∧
      subgraph ∈ (ofSelection selected []).subgraphs ∧
      DrawnInOrder (ofSelection selected []).nodes ids := by
  intro plain checks selected ids subgraph
  have member : subgraph ∈ (ofSelection selected []).subgraphs := by decide +kernel
  have ordered := nodeId_isomorphism.1 701 702
  have named := nodeId_isomorphism.2.1 "ZZZ"
  have drawn := nodeId_isomorphism.2.2.2 selected [] subgraph member
  have capitals : ∀ c ∈ "ZZZ".toList, c.isUpper = true := List.all_eq_true.mp (by decide)
  exact ⟨by decide +kernel, ordered.mpr (by decide), named.mpr ⟨by decide, capitals⟩, member, drawn.2⟩

end Diagram

end FlowAtlas
