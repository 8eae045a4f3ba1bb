import FlowAtlas.Proofs.Analysis.Reordering
import FlowAtlas.Proofs.Analysis.Selected
import FlowAtlas.Proofs.Diagram.Shown
import FlowAtlas.Proofs.Extraction.Growth
import Mathlib.Algebra.BigOperators.Ring.Finset

/-! The parts of an analysis agree with each other: what one of them repeats is what the others say. -/

namespace FlowAtlas

/-- What later phases say of a routine follows from what its record says. -/
structure Routine.Consistent (routine : Routine) : Prop where
  entryPoint : routine.entryPoint = Naming.isEntryPoint routine.name
  eventHandler : routine.eventHandler = Naming.isEventHandler routine.name
  businessLogic : routine.businessLogic = Naming.isBusinessLogic routine.name
  layers : routine.layers = Layer.labelsOf routine
  layer : routine.layer = routine.layers.head?
  importance : routine.importance = routine.score

/-- The records, edges, layers, selection, diagram and summary of an analysis tell the same of its routines. -/
structure Analysis.Consistent (analysis : Analysis) : Prop where
  distinct : (analysis.routines.map (·.id)).Nodup
  routines : ∀ routine ∈ analysis.routines, routine.Consistent
  incoming : ∀ routine ∈ analysis.routines, List.Forall₂ (CallGraph.Tells analysis.routines) routine.incoming
    (analysis.edges.filter fun edge => edge.calleeId == routine.id)
  layers : analysis.layers = Layer.labels.map fun label =>
    (label, (analysis.routines.filter fun routine => routine.layers.contains label).map (·.id))
  selected : analysis.selected ⊆ analysis.routines
  drawn : (analysis.diagram.nodes.filterMap (·.routineId)).Perm (analysis.selected.map (·.id))
  decisions : analysis.decisions = analysis.routines.flatMap (·.decisions)
  weights : analysis.summary.decisions = (analysis.routines.map fun routine => routine.cyclomaticWeight - 1).sum
  counts : analysis.summary.layerCounts = analysis.layers.map fun entry => (entry.1, (entry.2.length : Int))
  highlights : analysis.summary.highlights = ((analysis.decisions.filter fun decision =>
    ∃ routine ∈ analysis.selected, decision.owner = some routine.id).take 5).map Summary.highlight

namespace Extraction

structure Pooled (extraction : Extraction) : Prop where
  decisions : extraction.decisions = extraction.routines.flatMap (·.decisions)
  weighed : ∀ routine ∈ extraction.routines, routine.Weighed

theorem ofText_pooled (path text : String) (dialect : Dialect) : (ofText path text dialect).Pooled := by
  refine ⟨rfl, ?_⟩
  intro routine member
  obtain ⟨found, among, rfl⟩ := List.mem_map.mp member
  exact findingsOf_weighed path dialect _ found among

theorem Pooled.addFile {extraction : Extraction} (pooled : extraction.Pooled) (source : SourceFile)
    (text : List Char) : (extraction.addFile source text).Pooled := by
  have found := ofText_pooled source.relativePath (String.ofList text) source.dialect
  refine ⟨?_, ?_⟩
  · simp only [Extraction.addFile, append, pooled.decisions, found.decisions, List.flatMap_append]
  · intro routine member
    exact (List.mem_append.mp member).elim (pooled.weighed routine) (found.weighed routine)

theorem ofWalk_pooled (walk : Walk) : (ofWalk walk).Pooled := by
  refine List.foldlRecOn walk.sources _ ⟨rfl, by simp⟩ ?_
  intro extraction pooled file _
  cases file.text? with
  | none => exact pooled
  | some text => exact pooled.addFile file.source text

theorem Pooled.weights {extraction : Extraction} (pooled : extraction.Pooled) :
    (extraction.decisions.length : Int) =
      (extraction.routines.map fun routine => routine.cyclomaticWeight - 1).sum := by
  have counts : extraction.routines.map (fun routine => routine.cyclomaticWeight - 1) =
      extraction.routines.map fun routine => (routine.decisions.length : Int) := by
    refine List.map_congr_left fun routine member => ?_
    rw [pooled.weighed routine member]
    omega
  rw [pooled.decisions, List.length_flatMap, counts, Nat.cast_list_sum, List.map_map]
  rfl

end Extraction

section placed

variable (routine : Routine) (links : List Link)

theorem Routine.placed_consistent : (routine.placed links).Consistent := by
  have claims : Layer.claims (routine.placed links) = Layer.claims (routine.withIncoming links).flagged := by
    funext layer
    cases layer <;> simp only [Layer.claims, Layer.namedAfter, placed, scored, classified, flagged]
  have layers : (routine.placed links).layers = Layer.labelsOf (routine.placed links) := by
    rw [Layer.labelsOf, claims]
    rfl
  constructor
  case layers => exact layers
  all_goals simp only [placed, scored, score, classified, flagged, withIncoming]

theorem Routine.placed_kept :
    (routine.placed links).name = routine.name ∧ (routine.placed links).file = routine.file ∧
      (routine.placed links).decisions = routine.decisions ∧
      (routine.placed links).cyclomaticWeight = routine.cyclomaticWeight := by
  simp only [placed, scored, classified, flagged, withIncoming, and_self]

theorem CallGraph.Tells.placed {routines : List Routine} {call : IncomingCall} {edge : CallEdge}
    (tells : Tells routines call edge) : Tells (routines.map (Routine.placed links)) call edge := by
  obtain ⟨caller, held, same, call⟩ := tells
  obtain ⟨name, file, -⟩ := caller.placed_kept links
  refine ⟨caller.placed links, List.mem_map_of_mem held, ?_, ?_⟩
  · rwa [Routine.placed_id]
  · rw [call, Routine.placed_id, name, file]

end placed

namespace Landscape

variable {extraction : Extraction} (distinct : (extraction.routines.map (·.id)).Nodup)

include distinct

theorem ofExtraction_edges : (ofExtraction extraction).graph.edges = (Link.all extraction.routines).map Link.edge :=
  (CallGraph.ofRoutines_parts distinct).2

theorem ofExtraction_incoming : ∀ routine ∈ (ofExtraction extraction).graph.routines,
    List.Forall₂ (CallGraph.Tells (ofExtraction extraction).graph.routines) routine.incoming
      ((ofExtraction extraction).graph.edges.filter fun edge => edge.calleeId == routine.id) := by
  rw [ofExtraction_routines distinct, ofExtraction_edges distinct]
  intro routine member
  obtain ⟨found, _, rfl⟩ := List.mem_map.mp member
  rw [Routine.placed_id]
  exact (CallGraph.withIncoming_tells extraction.routines found).imp fun _ _ tells => tells.placed _

theorem ofExtraction_layers :
    (ofExtraction extraction).layers = layerMap (ofExtraction extraction).graph.routines := by
  have classified : (ofExtraction extraction).layers =
      layerMap ((CallGraph.ofRoutines extraction.routines).routines.map Routine.classified) := rfl
  rw [classified, CallGraph.ofRoutines_routines distinct, ofExtraction_routines distinct, List.map_map, layerMap,
    layerMap]
  refine List.map_congr_left fun label _ => ?_
  rw [List.filter_map, List.filter_map, List.map_map, List.map_map]
  rfl

end Landscape

theorem Summary.owned_iff {selected : List Routine} {decision : Decision} :
    owned selected decision = true ↔ ∃ routine ∈ selected, decision.owner = some routine.id := by
  cases owner : decision.owner with
  | none => simp [owned, owner]
  | some id =>
      simp only [owned, owner, Option.any_some, List.any_eq_true, beq_iff_eq, Option.some.injEq]
      exact exists_congr fun _ => and_congr_right fun _ => eq_comm

theorem Summary.ofExtraction_highlights (root : String) (extraction : Extraction) (selected : List Routine)
    (layers : Table (List String)) (moment : Timestamp) :
    (ofExtraction root extraction selected layers moment).highlights = ((extraction.decisions.filter fun decision =>
      ∃ routine ∈ selected, decision.owner = some routine.id).take 5).map highlight := by
  have same : owned selected = fun decision => decide (∃ routine ∈ selected, decision.owner = some routine.id) := by
    funext decision
    rw [Bool.eq_iff_iff, owned_iff, decide_eq_true_iff]
  rw [ofExtraction, same]
  rfl

namespace Analysis

theorem ofExtraction_selects {config : Config} (accepted : config.Accepted) (root : String)
    {extraction : Extraction} (distinct : (extraction.routines.map (·.id)).Nodup) (moment : Timestamp) :
    ∃ selected, ofExtraction config root extraction moment =
        .ok (ofSelection root extraction (.ofExtraction extraction) selected moment) ∧
      selected ⊆ (Landscape.ofExtraction extraction).graph.routines ∧ (selected.map (·.id)).Nodup := by
  have nonneg : 0 ≤ config.selectionCap := le_trans (by decide) accepted.cap
  obtain ⟨cap, same⟩ := Int.eq_ofNat_of_zero_le nonneg
  have ids : ((Landscape.ofExtraction extraction).graph.routines.map (·.id)).Nodup := by
    rw [Landscape.ofExtraction_ids distinct]
    exact distinct
  obtain ⟨-, within, once⟩ := select_subset ids (Landscape.ofExtraction extraction).layers cap
  refine ⟨_, ?_, within, once⟩
  have kept := Selection.select_eq_phases ids (Landscape.ofExtraction extraction).layers cap
  rw [ofExtraction, same]
  simp only [kept]
  rfl

theorem ofExtraction_consistent {config : Config} (accepted : config.Accepted) (root : String)
    {extraction : Extraction} (distinct : (extraction.routines.map (·.id)).Nodup) (pooled : extraction.Pooled)
    (moment : Timestamp) :
    ∃ analysis, ofExtraction config root extraction moment = .ok analysis ∧ analysis.Consistent := by
  obtain ⟨selected, done, within, once⟩ := ofExtraction_selects accepted root distinct moment
  have routines := Landscape.ofExtraction_routines distinct
  refine ⟨_, done, ?_, ?_, Landscape.ofExtraction_incoming distinct, Landscape.ofExtraction_layers distinct, within,
    Diagram.ofSelection_routineIds once _, ?_, ?_, rfl, ?_⟩
  · simp only [ofSelection]
    rw [Landscape.ofExtraction_ids distinct]
    exact distinct
  · simp only [ofSelection]
    rw [routines]
    intro routine member
    obtain ⟨found, _, rfl⟩ := List.mem_map.mp member
    exact found.placed_consistent _
  · simp only [ofSelection]
    rw [routines, List.flatMap_map, pooled.decisions]
    exact List.flatMap_congr fun routine _ => (routine.placed_kept _).2.2.1.symm
  · simp only [ofSelection, Summary.ofExtraction]
    rw [routines, List.map_map, pooled.weights]
    refine congrArg List.sum (List.map_congr_left fun routine _ => ?_)
    rw [Function.comp_apply, (routine.placed_kept _).2.2.2]
  · exact Summary.ofExtraction_highlights root extraction selected _ moment

/-- Every analysis of a tree is consistent, across files too. -/
theorem ofEntries_consistent {config : Config} (accepted : config.Accepted) (root : String)
    {entries : Except PathFault (List Tree)} (listed : ∀ trees, entries = .ok trees → Tree.WellListed trees)
    (moment : Timestamp) :
    ∃ analysis, ofEntries config root entries moment = .ok analysis ∧ analysis.Consistent :=
  ofExtraction_consistent accepted root
    (Extraction.ofWalk_ids_nodup (Walk.ofEntries_paths_nodup config root entries listed))
    (Extraction.ofWalk_pooled _) moment

/-- Two files whose routines call each other, one of them an entry point that branches. -/
theorem ofEntries_consistent_linked :
    let content (text : String) : Except PathFault (List UInt8) := .ok (text.toList.map fun c => UInt8.ofNat c.toNat)
    let trees := [Tree.file "app.py" (content "def main():\n if ready():\n  save_model()\n"),
      .directory "lib" [.file "store.py" (content "def save_model():\n main()\ndef ready(): pass\n")]]
    let moment : Timestamp := { year := 2024, month := 1, day := 1 }
    Config.Accepted {} ∧ Tree.WellListed trees ∧
      ∃ analysis, ofEntries {} "/src" (.ok trees) moment = .ok analysis ∧ analysis.Consistent := by
  intro content trees moment
  have listed : Tree.WellListed trees := by
    simp [trees, Tree.WellListed, Tree.WellNamed, Tree.name]
  have named : ∀ others, (.ok trees : Except PathFault (List Tree)) = .ok others → Tree.WellListed others := by
    intro others same
    rwa [← Except.ok.inj same]
  exact ⟨Config.default_accepted, listed, ofEntries_consistent Config.default_accepted "/src" named _⟩

end Analysis

end FlowAtlas
