import FlowAtlas.Diagram.Synthesis
import FlowAtlas.Proofs.Ranking.Order
import Mathlib.Data.List.Nodup

namespace FlowAtlas.Diagram

def routineIds (nodes : List Node) : List String := nodes.filterMap (·.routineId)

namespace Chain

variable (chain : Chain)

theorem routineIds_hang (label : String) (style : Style) (shape : Shape) (routineId : Option String) :
    routineIds (chain.hang label style shape routineId).nodes = routineIds chain.nodes ++ routineId.toList := by
  rw [hang, routineIds, List.filterMap_append]
  cases routineId <;> rfl

theorem routineIds_branch : routineIds chain.branch.nodes = routineIds chain.nodes := by
  rw [branch, routineIds, List.filterMap_append]
  exact List.append_nil _

theorem routineIds_hangStep (layers : Table (List String)) (routine : Routine) :
    routineIds (chain.hangStep layers routine).nodes = routineIds chain.nodes ++ [routine.id] := by
  rw [hangStep]
  split
  · rw [routineIds_branch, routineIds_hang]
    rfl
  · exact routineIds_hang chain _ _ _ _

theorem routineIds_start (entry : Option Routine) :
    routineIds (start entry).nodes = entry.toList.map (·.id) := by
  cases entry <;> rfl

theorem routineIds_foldl {draw : Chain → Routine → Chain}
    (drawn : ∀ chain routine, routineIds (draw chain routine).nodes = routineIds chain.nodes ++ [routine.id])
    (routines : List Routine) : ∀ chain : Chain,
      routineIds (routines.foldl draw chain).nodes = routineIds chain.nodes ++ routines.map (·.id) := by
  induction routines with
  | nil => simp
  | cons routine rest ih =>
      intro chain
      rw [List.foldl_cons, ih, drawn, List.append_assoc]
      rfl

end Chain

def initializersOf (selected : List Routine) : List Routine := (afterEntry selected).filter (·.isInitializer)

def stepsOf (selected : List Routine) : List Routine := (afterEntry selected).filter fun routine => !routine.isInitializer

theorem routineIds_ofSelection (selected : List Routine) (layers : Table (List String)) :
    routineIds (ofSelection selected layers).nodes =
      ((entryOf selected).toList ++ (initializersOf selected ++ stepsOf selected)).map (·.id) := by
  change routineIds (chainOf selected layers).nodes = _
  rw [chainOf, Chain.routineIds_hang, Chain.routineIds_foldl fun chain => chain.routineIds_hangStep layers,
    Chain.routineIds_foldl fun chain routine => chain.routineIds_hang _ _ _ _, Chain.routineIds_start,
    Option.toList_none, List.append_nil, List.append_assoc, List.map_append, List.map_append]
  rfl

theorem entryOf_mem {selected : List Routine} {entry : Routine} (found : entryOf selected = some entry) :
    entry ∈ Ranking.rank selected := by
  rcases Option.or_eq_some_iff.mp found with important | ⟨_, first⟩
  · exact List.mem_of_find?_eq_some important
  · exact (Ranking.rank_ranks selected).perm.mem_iff.mpr (List.mem_of_head? first)

theorem afterEntry_subset (selected : List Routine) : afterEntry selected ⊆ selected := by
  intro routine member
  apply (Ranking.rank_ranks selected).perm.mem_iff.mp
  rw [afterEntry] at member
  split at member
  · exact List.mem_of_mem_filter member
  · exact member

theorem afterEntry_perm {selected : List Routine} (distinct : (selected.map (·.id)).Nodup) :
    ((entryOf selected).toList.map (·.id) ++ (afterEntry selected).map (·.id)).Perm (selected.map (·.id)) := by
  have ranked : ((Ranking.rank selected).map (·.id)).Perm (selected.map (·.id)) :=
    (Ranking.rank_ranks selected).perm.map _
  rw [afterEntry]
  cases found : entryOf selected with
  | none => exact ranked
  | some entry =>
      have others : ((Ranking.rank selected).filter fun routine => routine.id != entry.id).map (·.id) =
          ((Ranking.rank selected).map (·.id)).erase entry.id := by
        rw [(ranked.nodup_iff.mpr distinct).erase_eq_filter, List.filter_map]
        rfl
      dsimp only [Option.toList_some, List.map_cons]
      rw [others]
      exact (List.perm_cons_erase (List.mem_map_of_mem (entryOf_mem found))).symm.trans ranked

/-- Every selected routine has its node, whichever of its parts the diagram shows it in. -/
theorem ofSelection_routineIds {selected : List Routine} (distinct : (selected.map (·.id)).Nodup)
    (layers : Table (List String)) :
    (routineIds (ofSelection selected layers).nodes).Perm (selected.map (·.id)) := by
  have parts : (initializersOf selected ++ stepsOf selected).Perm (afterEntry selected) :=
    List.filter_append_perm _ _
  rw [routineIds_ofSelection, List.map_append]
  exact ((parts.map _).append_left _).trans (afterEntry_perm distinct)

end FlowAtlas.Diagram
