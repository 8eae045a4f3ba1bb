import FlowAtlas.Diagram.Synthesis
import FlowAtlas.Proofs.Ranking.Unlinked
import FlowAtlas.Proofs.Table

/-! A diagram shows neither the incoming calls of its routines nor the order in which a layer lists them. -/

namespace FlowAtlas

theorem Reordered.contains {first second : Table (List String)} (reordered : Reordered first second)
    (label id : String) : ((first.get? label).getD []).contains id = ((second.get? label).getD []).contains id := by
  induction reordered with
  | nil => rfl
  | @cons before after _ _ alike _ ih =>
      obtain ⟨labels, ids⟩ := alike
      rw [Table.get?_cons, Table.get?_cons, labels]
      split
      · exact ids.contains_eq
      · exact ih

theorem Reordered.primaryLayer {first second : Table (List String)} (reordered : Reordered first second)
    (routine : Routine) : routine.primaryLayer first = routine.primaryLayer second := by
  have ofMap : Routine.primaryLayer.ofMap first routine = Routine.primaryLayer.ofMap second routine := by
    simp only [Routine.primaryLayer.ofMap, reordered.contains]
  rw [Routine.primaryLayer, Routine.primaryLayer, ofMap]

namespace Diagram

variable (selected : List Routine)

theorem ofSelection_reordered {first second : Table (List String)} (reordered : Reordered first second) :
    ofSelection selected first = ofSelection selected second := by
  have same : ∀ routine : Routine, routine.primaryLayer first = routine.primaryLayer second := reordered.primaryLayer
  have steps : Chain.hangStep first = Chain.hangStep second := by
    funext chain routine
    rw [Chain.hangStep, Chain.hangStep, same]
  have chains : chainOf selected first = chainOf selected second := by
    rw [chainOf, chainOf, steps]
  have subgraphs : ∀ places, subgraphOf? selected first places = subgraphOf? selected second places := by
    intro places
    funext label
    simp only [subgraphOf?, same]
  rw [ofSelection, ofSelection, chains, subgraphs]

theorem entryOf_unlinked : entryOf (selected.map Routine.unlinked) = (entryOf selected).map Routine.unlinked := by
  rw [entryOf, entryOf, Ranking.rank_unlinked, List.find?_map, List.head?_map, Option.map_or]
  rfl

theorem afterEntry_unlinked :
    afterEntry (selected.map Routine.unlinked) = (afterEntry selected).map Routine.unlinked := by
  rw [afterEntry, afterEntry, entryOf_unlinked, Ranking.rank_unlinked]
  cases entryOf selected with
  | none => rfl
  | some entry => exact List.filter_map

theorem chainOf_unlinked (layers : Table (List String)) :
    chainOf (selected.map Routine.unlinked) layers = chainOf selected layers := by
  have start : Chain.start ((entryOf selected).map Routine.unlinked) = Chain.start (entryOf selected) := by
    cases entryOf selected <;> rfl
  simp only [chainOf, entryOf_unlinked, afterEntry_unlinked, start, List.filter_map, List.foldl_map]
  rfl

theorem ofSelection_unlinked (layers : Table (List String)) :
    ofSelection (selected.map Routine.unlinked) layers = ofSelection selected layers := by
  have subgraphs : subgraphOf? (selected.map Routine.unlinked) layers = subgraphOf? selected layers := by
    funext places label
    simp only [subgraphOf?, List.filter_map, List.length_map, List.filterMap_map]
    rfl
  simp only [ofSelection, chainOf_unlinked, subgraphs]

end Diagram

end FlowAtlas
