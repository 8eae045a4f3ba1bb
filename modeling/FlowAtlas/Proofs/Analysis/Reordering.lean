import FlowAtlas.Proofs.Analysis.Routines
import FlowAtlas.Proofs.Diagram.Unlinked

namespace FlowAtlas

/-- The same routine with the same calls that come in, in any order. -/
structure Routine.Alike (first second : Routine) : Prop where
  unlinked : first.unlinked = second.unlinked
  incoming : first.incoming.Perm second.incoming

/-- Landscapes that tell the same of each id and differ only in the order of what they list. -/
structure Landscape.Alike (first second : Landscape) : Prop where
  nodes : ∀ id, Option.Rel Routine.Alike (first.graph.nodes.get? id) (second.graph.nodes.get? id)
  edges : first.graph.edges.Perm second.graph.edges
  layers : Reordered first.layers second.layers

section perm

variable {first second : List Routine} (perm : first.Perm second)

include perm in
theorem Link.all_perm : (all first).Perm (all second) := by
  refine perm.flatMap fun caller _ => ?_
  refine List.Perm.flatMap_left _ fun call _ => ?_
  exact (perm.filter _).map _

theorem Routine.placed_alike {links others : List Link} (perm : links.Perm others) (routine : Routine) :
    (routine.placed links).Alike (routine.placed others) := by
  have incoming : (routine.withIncoming links).incoming.Perm (routine.withIncoming others).incoming :=
    (perm.filter _).map _
  have score : (routine.withIncoming links).classified.score = (routine.withIncoming others).classified.score := by
    have length : (routine.withIncoming links).classified.incoming.length =
        (routine.withIncoming others).classified.incoming.length := incoming.length_eq
    rw [score, score, length]
    rfl
  refine ⟨?_, incoming⟩
  rw [placed, placed, scored, scored, score]
  rfl

theorem layerMap_reordered (perm : (first.map Routine.unlinked).Perm (second.map Routine.unlinked)) :
    Reordered (layerMap first) (layerMap second) := by
  rw [Reordered, layerMap, layerMap, List.forall₂_map_left_iff, List.forall₂_map_right_iff]
  refine List.forall₂_same.mpr fun label _ => ⟨rfl, ?_⟩
  have listed := (perm.filter fun routine => routine.layers.contains label).map (·.id)
  rw [List.filter_map, List.filter_map, List.map_map, List.map_map] at listed
  exact listed

theorem find_perm (distinct : (first.map (·.id)).Nodup) (perm : first.Perm second) (id : String) :
    (first.find? fun routine => routine.id == id) = second.find? fun routine => routine.id == id := by
  refine List.find?_eq_find?_of_perm perm ?_
  rintro one ⟨member, here⟩ other ⟨among, there⟩
  exact List.inj_on_of_nodup_map distinct member among ((beq_iff_eq.mp here).trans (beq_iff_eq.mp there).symm)

theorem get?_placed (routines : List Routine) (links : List Link) (id : String) :
    Table.get? (routines.map fun routine => (routine.id, routine.placed links)) id =
      (routines.find? fun routine => routine.id == id).map (Routine.placed links) := by
  induction routines with
  | nil => rfl
  | cons routine rest ih =>
      rw [List.map_cons, Table.get?_cons, List.find?_cons, ih]
      by_cases same : id = routine.id
      · simp [same]
      · have apart : (routine.id == id) = false := beq_eq_false_iff_ne.mpr (Ne.symm same)
        rw [if_neg same, apart]

end perm

theorem eq_of_ids {known : List Routine} (distinct : (known.map (·.id)).Nodup) {first : List Routine} :
    ∀ {second : List Routine}, first ⊆ known → second ⊆ known → first.map (·.id) = second.map (·.id) →
      first = second := by
  induction first with
  | nil => exact fun _ _ same => (List.map_eq_nil_iff.mp same.symm).symm
  | cons one rest ih =>
      intro second front back same
      cases second with
      | nil => cases same
      | cons other others =>
          obtain ⟨ids, more⟩ := List.cons.inj same
          obtain ⟨held, within⟩ := List.cons_subset.mp front
          obtain ⟨among, inside⟩ := List.cons_subset.mp back
          rw [List.inj_on_of_nodup_map distinct held among ids, ih within inside more]

namespace Landscape

/-- The ids of the routines of one importance, in their order. -/
def tied (landscape : Landscape) (importance : Int) : List String :=
  (landscape.graph.routines.filter fun routine => routine.importance = importance).map (·.id)

theorem tied_eq (landscape : Landscape) (importance : Int) : landscape.tied importance =
    ((landscape.graph.routines.map fun routine => (routine.id, routine.importance)).filter fun entry =>
      entry.2 = importance).map (·.1) := by
  rw [tied, List.filter_map, List.map_map]
  rfl

theorem ofExtraction_ids {extraction : Extraction} (distinct : (extraction.routines.map (·.id)).Nodup) :
    (ofExtraction extraction).graph.routines.map (·.id) = extraction.routines.map (·.id) := by
  rw [ofExtraction_routines distinct, List.map_map]
  exact List.map_congr_left fun routine _ => Routine.placed_id _ routine

variable {first second : Extraction} (distinct : (first.routines.map (·.id)).Nodup)
  (perm : first.routines.Perm second.routines)

include distinct perm

theorem distinct_perm : (second.routines.map (·.id)).Nodup := (perm.map _).nodup_iff.mp distinct

theorem unlinked_perm : ((ofExtraction first).graph.routines.map Routine.unlinked).Perm
    ((ofExtraction second).graph.routines.map Routine.unlinked) := by
  rw [ofExtraction_routines distinct, ofExtraction_routines (distinct_perm distinct perm), List.map_map, List.map_map]
  have same : Routine.unlinked ∘ Routine.placed (Link.all first.routines) =
      Routine.unlinked ∘ Routine.placed (Link.all second.routines) :=
    funext fun routine => (routine.placed_alike (Link.all_perm perm)).unlinked
  rw [same]
  exact perm.map _

theorem layers_reordered : Reordered (ofExtraction first).layers (ofExtraction second).layers := by
  have layers : ∀ extraction : Extraction, (ofExtraction extraction).layers =
      layerMap ((CallGraph.ofRoutines extraction.routines).routines.map Routine.classified) := fun _ => rfl
  rw [layers, layers, CallGraph.ofRoutines_routines distinct,
    CallGraph.ofRoutines_routines (distinct_perm distinct perm)]
  have bare : ∀ (routines : List Routine) (links : List Link),
      ((routines.map fun routine => routine.withIncoming links).map Routine.classified).map Routine.unlinked =
        routines.map fun routine => routine.classified.unlinked := by
    intro routines links
    rw [List.map_map, List.map_map]
    rfl
  refine layerMap_reordered ?_
  rw [bare, bare]
  exact perm.map _

theorem ofExtraction_alike : (ofExtraction first).Alike (ofExtraction second) := by
  have links := Link.all_perm perm
  refine ⟨?_, ?_, layers_reordered distinct perm⟩
  · intro id
    rw [ofExtraction_nodes distinct, ofExtraction_nodes (distinct_perm distinct perm), get?_placed, get?_placed,
      find_perm distinct perm]
    cases second.routines.find? fun routine => routine.id == id with
    | none => exact .none
    | some routine => exact .some (routine.placed_alike links)
  · have edges : ∀ extraction : Extraction, (ofExtraction extraction).graph.edges =
        (CallGraph.ofRoutines extraction.routines).edges := fun _ => rfl
    rw [edges, edges, (CallGraph.ofRoutines_parts distinct).2,
      (CallGraph.ofRoutines_parts (distinct_perm distinct perm)).2]
    exact links.map _

theorem ranked_alike
    (ties : ∀ importance, (ofExtraction first).tied importance = (ofExtraction second).tied importance) :
    (Ranking.rank (ofExtraction first).graph.routines).map Routine.unlinked =
      (Ranking.rank (ofExtraction second).graph.routines).map Routine.unlinked := by
  have unlinked := unlinked_perm distinct perm
  have once : (((ofExtraction first).graph.routines.map Routine.unlinked).map (·.id)).Nodup := by
    have ids : Routine.id ∘ Routine.unlinked = Routine.id := rfl
    rw [List.map_map, ids, ofExtraction_ids distinct]
    exact distinct
  have kept : Ranking.TiesKept ((ofExtraction first).graph.routines.map Routine.unlinked)
      ((ofExtraction second).graph.routines.map Routine.unlinked) := by
    intro importance
    refine eq_of_ids once (List.filter_subset_self _) ?_ ?_
    · exact fun routine member => unlinked.mem_iff.mpr (List.mem_of_mem_filter member)
    · rw [List.filter_map, List.filter_map, List.map_map, List.map_map]
      exact ties importance
  rw [← Ranking.rank_unlinked, ← Ranking.rank_unlinked, kept.rank]

theorem select_alike (ties : ∀ importance, (ofExtraction first).tied importance = (ofExtraction second).tied importance)
    (cap : Int) :
    let before := ofExtraction first
    let after := ofExtraction second
    (select before.graph.routines before.layers cap).map (List.map Routine.unlinked) =
      (select after.graph.routines after.layers cap).map (List.map Routine.unlinked) := by
  intro before after
  have early : (before.graph.routines.map (·.id)).Nodup := by
    rw [ofExtraction_ids distinct]
    exact distinct
  have late : (after.graph.routines.map (·.id)).Nodup := by
    rw [ofExtraction_ids (distinct_perm distinct perm)]
    exact distinct_perm distinct perm
  by_cases negative : cap < 0
  · have lengths := (unlinked_perm distinct perm).length_eq
    rw [List.length_map, List.length_map] at lengths
    rw [Selection.select_negative early _ negative, Selection.select_negative late _ negative, lengths]
  · obtain ⟨count, rfl⟩ := Int.eq_ofNat_of_zero_le (Int.not_lt.mp negative)
    have front := Selection.ranked_distinct early (Ranking.rank_ranks _)
    have back := Selection.ranked_distinct late (Ranking.rank_ranks _)
    rw [Selection.select_eq_phases early, Selection.select_eq_phases late]
    refine congrArg Except.ok ?_
    rw [← Selection.phases_unlinked front, ← Selection.phases_unlinked back, ranked_alike distinct perm ties,
      Selection.phases_reordered (layers_reordered distinct perm)]

end Landscape

def Landscape.shown (landscape : Landscape) (cap : Int) : Except SelectionFault (List String × String) :=
  (select landscape.graph.routines landscape.layers cap).map fun selected =>
    (selected.map (·.id), (Diagram.ofSelection selected landscape.layers).render)

/-- Routines that are scanned in another order are resolved, classified and scored alike. If those of equal importance
keep their order, then the same ones are selected and drawn, whatever the cap is. -/
theorem Landscape.ofExtraction_order {first second : Extraction} (distinct : (first.routines.map (·.id)).Nodup)
    (perm : first.routines.Perm second.routines) :
    (ofExtraction first).Alike (ofExtraction second) ∧
      ((∀ importance, (ofExtraction first).tied importance = (ofExtraction second).tied importance) →
        ∀ cap, (ofExtraction first).shown cap = (ofExtraction second).shown cap) := by
  refine ⟨ofExtraction_alike distinct perm, fun ties cap => ?_⟩
  -- Selections differ in the order of incoming calls, which no diagram shows.
  have drawn : ∀ landscape : Landscape, landscape.shown cap =
      ((select landscape.graph.routines landscape.layers cap).map (List.map Routine.unlinked)).map fun selected =>
        (selected.map (·.id), (Diagram.ofSelection selected landscape.layers).render) := by
    intro landscape
    rw [shown]
    cases select landscape.graph.routines landscape.layers cap with
    | error fault => rfl
    | ok selected =>
        simp only [Except.map, Diagram.ofSelection_unlinked, List.map_map]
        rfl
  rw [drawn, drawn, select_alike distinct perm ties cap]
  simp only [Diagram.ofSelection_reordered _ (layers_reordered distinct perm)]

theorem Landscape.ofExtraction_order_tied :
    let plain (id : String) : Routine := { id, name := id, file := "f", line := 1 }
    let caller : Routine := { plain "main" with outgoing := [⟨"a", 2⟩, ⟨"b", 3⟩] }
    let first : Extraction := { routines := [plain "a", plain "b", caller] }
    let second : Extraction := { routines := [caller, plain "a", plain "b"] }
    (first.routines.map (·.id)).Nodup ∧ first.routines.Perm second.routines ∧
      (ofExtraction first).Alike (ofExtraction second) ∧
      (∀ importance, (ofExtraction first).tied importance = (ofExtraction second).tied importance) ∧
      ∀ cap, (ofExtraction first).shown cap = (ofExtraction second).shown cap := by
  intro plain caller first second
  have distinct : (first.routines.map (·.id)).Nodup := by decide
  have perm : first.routines.Perm second.routines := by decide
  have early : (ofExtraction first).graph.routines.map (fun routine => (routine.id, routine.importance)) =
      [("a", 2), ("b", 2), ("main", 25)] := by decide +kernel
  have late : (ofExtraction second).graph.routines.map (fun routine => (routine.id, routine.importance)) =
      [("main", 25), ("a", 2), ("b", 2)] := by decide +kernel
  have ties : ∀ importance, (ofExtraction first).tied importance = (ofExtraction second).tied importance := by
    intro importance
    rw [tied_eq, tied_eq, early, late]
    by_cases low : importance = 2
    · rw [low]
      rfl
    · have apart : ¬ 2 = importance := fun same => low same.symm
      simp [List.filter_cons, apart]
  obtain ⟨alike, same⟩ := ofExtraction_order distinct perm
  exact ⟨distinct, perm, alike, ties, same ties⟩

end FlowAtlas
