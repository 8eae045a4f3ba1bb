import FlowAtlas.Diagram.Synthesis
import FlowAtlas.Proofs.Table
import Mathlib.Data.List.Find
import Mathlib.Data.List.Forall2
import Mathlib.Data.List.Induction

/-! Classification by name. The layers of a routine, the map of all layers and the layer that a diagram looks up say
the same. -/

namespace FlowAtlas

namespace Layer

theorem mem_all (layer : Layer) : layer ∈ all := by cases layer <;> decide

theorem label_injective : Function.Injective label := by
  intro first second same
  cases first <;> cases second <;> first | rfl | exact absurd same (by decide)

theorem labels_nodup : labels.Nodup := by decide

variable (routine : Routine)

theorem labelsOf_cases :
    (labelsOf routine = (all.filter (claims routine)).map label ∧ ∃ layer, claims routine layer = true) ∨
      (labelsOf routine = [utilities.label] ∧ ∀ layer, claims routine layer = false) := by
  by_cases claimed : ∃ layer, claims routine layer = true
  · obtain ⟨layer, claim⟩ := claimed
    have held : label layer ∈ (all.filter (claims routine)).map label :=
      List.mem_map_of_mem (List.mem_filter.mpr ⟨mem_all layer, claim⟩)
    refine Or.inl ⟨if_neg ?_, layer, claim⟩
    rw [List.isEmpty_iff]
    exact List.ne_nil_of_mem held
  · simp only [not_exists, Bool.not_eq_true] at claimed
    have empty : all.filter (claims routine) = [] :=
      List.filter_eq_nil_iff.mpr fun layer _ => by simp [claimed layer]
    exact Or.inr ⟨by rw [labelsOf, empty]; rfl, claimed⟩

theorem labelsOf_sublist : (labelsOf routine).Sublist labels := by
  rcases labelsOf_cases routine with ⟨same, -⟩ | ⟨same, -⟩
  · rw [same]
    exact List.filter_sublist.map label
  · rw [same]
    exact List.singleton_sublist.mpr (List.mem_map_of_mem (mem_all utilities))

theorem labelsOf_ne_nil : labelsOf routine ≠ [] := by
  rcases labelsOf_cases routine with ⟨same, layer, claim⟩ | ⟨same, -⟩
  · rw [same]
    apply List.ne_nil_of_mem
    exact List.mem_map_of_mem (List.mem_filter.mpr ⟨mem_all layer, claim⟩)
  · rw [same]
    exact List.cons_ne_nil _ _

theorem mem_labelsOf (layer : Layer) : layer.label ∈ labelsOf routine ↔
    claims routine layer = true ∨ layer = utilities ∧ ∀ other, claims routine other = false := by
  rcases labelsOf_cases routine with ⟨same, other, claim⟩ | ⟨same, unclaimed⟩
  · rw [same, List.mem_map_of_injective label_injective, List.mem_filter, and_iff_right (mem_all layer)]
    refine (or_iff_left ?_).symm
    rintro ⟨-, unclaimed⟩
    rw [unclaimed other] at claim
    cases claim
  · rw [same, List.mem_singleton, label_injective.eq_iff, unclaimed layer]
    simp [unclaimed]

theorem find?_labelsOf : labels.find? (fun label => decide (label ∈ labelsOf routine)) = (labelsOf routine).head? := by
  rcases labelsOf_cases routine with ⟨same, -⟩ | ⟨same, -⟩
  · have held : (fun layer : Layer => decide (layer.label ∈ (all.filter (claims routine)).map label)) =
        claims routine := by
      funext layer
      apply Bool.eq_iff_iff.mpr
      rw [decide_eq_true_iff, List.mem_map_of_injective label_injective, List.mem_filter]
      exact and_iff_right (mem_all layer)
    rw [same, labels, List.find?_map, List.head?_map, List.head?_filter]
    exact congrArg (fun test => (all.find? test).map label) held
  · rw [same]
    decide

end Layer

namespace Routine

def unlabelled (routine : Routine) : Routine :=
  { routine with
    entryPoint := false
    eventHandler := false
    businessLogic := false
    layers := []
    layer := none }

/-- The flags and layers of a routine are those of its names, in the order of layers. -/
structure Labelled (routine : Routine) : Prop where
  entryPoint : routine.entryPoint = Naming.isEntryPoint routine.name
  eventHandler : routine.eventHandler = Naming.isEventHandler routine.name
  businessLogic : routine.businessLogic = Naming.isBusinessLogic routine.name
  claimed : ∀ layer : Layer, layer.label ∈ routine.layers ↔
    Layer.claims routine layer = true ∨ layer = .utilities ∧ ∀ other, Layer.claims routine other = false
  given : routine.layers ≠ []
  ordered : routine.layers.Sublist Layer.labels
  first : routine.layer = routine.layers.head?

variable (routine : Routine)

theorem labelsOf_classified : Layer.labelsOf routine.classified = routine.classified.layers := by
  have claims : Layer.claims routine.classified = Layer.claims routine.flagged := by
    funext layer
    cases layer <;> rfl
  rw [Layer.labelsOf, claims]
  rfl

theorem classified_labelled : routine.classified.Labelled where
  entryPoint := rfl
  eventHandler := rfl
  businessLogic := rfl
  claimed := by
    rw [← labelsOf_classified]
    exact Layer.mem_labelsOf _
  given := Layer.labelsOf_ne_nil _
  ordered := Layer.labelsOf_sublist _
  first := rfl

theorem classified_unlabelled : routine.classified.unlabelled = routine.unlabelled := rfl

theorem unlabelled_classified : routine.unlabelled.classified = routine.classified := by
  have flagged : routine.unlabelled.flagged = { routine.flagged with layers := [], layer := none } := rfl
  have claims : Layer.claims routine.unlabelled.flagged = Layer.claims routine.flagged := by
    funext layer
    cases layer <;> rfl
  have labels : Layer.labelsOf routine.unlabelled.flagged = Layer.labelsOf routine.flagged := by
    rw [Layer.labelsOf, Layer.labelsOf, claims]
  rw [classified, classified, labels, flagged]

theorem classified_classified : routine.classified.classified = routine.classified := by
  rw [← unlabelled_classified, classified_unlabelled, unlabelled_classified]

end Routine

section map

variable (routines : List Routine)

theorem layerMap_keys : (layerMap routines).keys = Layer.labels := by
  rw [layerMap, Table.keys, List.map_map]
  exact List.map_id _

theorem layerMap_get? {label : String} (known : label ∈ Layer.labels) : (layerMap routines).get? label =
    some ((routines.filter fun routine => label ∈ routine.layers).map (·.id)) := by
  rw [layerMap, Table.get?_map_of_mem known]
  simp only [List.contains_eq_mem]

def noteLayers (layers : Table (List String)) (routine : Routine) : Table (List String) :=
  routine.layers.foldl (fun layers label => layers.adjust label (· ++ [routine.id])) layers

theorem foldl_adjust (labels : List String) (distinct : labels.Nodup) (id : String) : ∀ layers : Table (List String),
    labels.foldl (fun layers label => layers.adjust label (· ++ [id])) layers =
      layers.map fun entry => (entry.1, entry.2 ++ if entry.1 ∈ labels then [id] else []) := by
  induction labels with
  | nil => simp
  | cons label rest ih =>
      intro layers
      obtain ⟨fresh, others⟩ := List.nodup_cons.mp distinct
      rw [List.foldl_cons, ih others, Table.adjust, List.map_map]
      refine List.map_congr_left fun entry _ => ?_
      by_cases same : entry.1 = label
      · simp [same, fresh]
      · simp [same]

theorem layerMap_eq_foldl (single : ∀ routine ∈ routines, routine.layers.Nodup) :
    layerMap routines = routines.foldl noteLayers (Layer.labels.map fun label => (label, [])) := by
  induction routines using List.reverseRecOn with
  | nil => rfl
  | append_singleton routines routine ih =>
      have before := ih fun other member => single other (List.mem_append_left _ member)
      have once : routine.layers.Nodup := single routine (by simp)
      rw [List.foldl_append, ← before, List.foldl_cons, List.foldl_nil, noteLayers, foldl_adjust _ once, layerMap,
        layerMap, List.map_map]
      refine List.map_congr_left fun label _ => ?_
      by_cases held : label ∈ routine.layers <;> simp [List.filter_append, held]

theorem mem_layerMap (distinct : (routines.map (·.id)).Nodup) {routine : Routine} (member : routine ∈ routines)
    {label : String} (known : label ∈ Layer.labels) :
    routine.id ∈ ((layerMap routines).get? label).getD [] ↔ label ∈ routine.layers := by
  rw [layerMap_get? routines known, Option.getD_some, List.mem_map]
  constructor
  · rintro ⟨other, listed, same⟩
    obtain ⟨among, held⟩ := List.mem_filter.mp listed
    rw [← List.inj_on_of_nodup_map distinct among member same]
    exact of_decide_eq_true held
  · intro held
    exact ⟨routine, List.mem_filter.mpr ⟨member, decide_eq_true held⟩, rfl⟩

end map

theorem primaryLayer_of_map {routines : List Routine} (distinct : (routines.map (·.id)).Nodup) {routine : Routine}
    (member : routine ∈ routines) (layers : routine.layers = Layer.labelsOf routine) :
    some (({ routine with layer := none } : Routine).primaryLayer (layerMap routines)) = routine.layers.head? := by
  have asked : ∀ label ∈ Layer.labels,
      (((layerMap routines).get? label).getD []).contains routine.id = decide (label ∈ routine.layers) := by
    intro label known
    rw [List.contains_eq_mem]
    exact decide_eq_decide.mpr (mem_layerMap routines distinct member known)
  have found : Layer.labels.find? (fun label => (((layerMap routines).get? label).getD []).contains routine.id) =
      routine.layers.head? := by
    rw [List.find?_congr asked, layers]
    exact Layer.find?_labelsOf routine
  obtain ⟨label, first⟩ := Option.ne_none_iff_exists'.mp
    (mt List.head?_eq_none_iff.mp (layers ▸ Layer.labelsOf_ne_nil routine))
  rw [Routine.primaryLayer, Routine.primaryLayer.ofMap, found, first]
  rfl

/-- Classification keeps the routines in their order and everything else that they say, reads nothing of what it
writes, and lists each routine in its own layers. The map alone tells the first of them. -/
theorem classify_labels (routines : List Routine) :
    let records := (classify routines).1
    let layers := (classify routines).2
    List.Forall₂ (fun routine record => record.unlabelled = routine.unlabelled ∧ record.Labelled) routines records ∧
      layers.keys = Layer.labels ∧
      (∀ label ∈ Layer.labels, layers.get? label =
        some ((records.filter fun record => label ∈ record.layers).map (·.id))) ∧
      layers = records.foldl noteLayers (Layer.labels.map fun label => (label, [])) ∧
      classify records = (records, layers) ∧
      classify (routines.map Routine.unlabelled) = (records, layers) ∧
      ((routines.map (·.id)).Nodup → ∀ record ∈ records,
        record.layer = some (({ record with layer := none } : Routine).primaryLayer layers)) := by
  intro records layers
  have again : classify (routines.map Routine.unlabelled) = (records, layers) := by
    have same : (routines.map Routine.unlabelled).map Routine.classified = routines.map Routine.classified := by
      rw [List.map_map]
      exact List.map_congr_left fun routine _ => routine.unlabelled_classified
    rw [classify, same]
    rfl
  have twice : classify records = (records, layers) := by
    have same : (routines.map Routine.classified).map Routine.classified = routines.map Routine.classified := by
      rw [List.map_map]
      exact List.map_congr_left fun routine _ => routine.classified_classified
    rw [classify]
    simp only [records, classify, same]
    rfl
  have single : ∀ record ∈ records, record.layers.Nodup := by
    intro record member
    obtain ⟨routine, -, rfl⟩ := List.mem_map.mp member
    exact routine.classified_labelled.ordered.nodup Layer.labels_nodup
  refine ⟨?_, layerMap_keys _, fun label known => layerMap_get? _ known, layerMap_eq_foldl _ single, twice, again, ?_⟩
  · apply List.forall₂_map_right_iff.mpr
    apply List.forall₂_same.mpr
    exact fun routine _ => ⟨routine.classified_unlabelled, routine.classified_labelled⟩
  · intro distinct record member
    have ids : (records.map (·.id)).Nodup := by
      simp only [records, classify, List.map_map]
      exact distinct
    obtain ⟨routine, -, rfl⟩ := List.mem_map.mp member
    exact (primaryLayer_of_map ids member routine.labelsOf_classified.symm).symm

theorem classify_labels_stale :
    let plain (id name : String) : Routine := { id, name, file := "f", line := 1 }
    let routines : List Routine := [{ plain "a" "processUserModel" with owner := some "OrderService" },
      { plain "b" "compute" with entryPoint := true, layers := ["Models", "Models"], layer := some "Services" }]
    let records := (classify routines).1
    let layers := (classify routines).2
    (routines.map (·.id)).Nodup ∧ "Services" ∈ Layer.labels ∧
      layers.get? "Services" = some ((records.filter fun record => "Services" ∈ record.layers).map (·.id)) ∧
      ∃ record ∈ records, record.layer = some (({ record with layer := none } : Routine).primaryLayer layers) := by
  intro plain routines records layers
  have distinct : (routines.map (·.id)).Nodup := by decide
  have known : "Services" ∈ Layer.labels := by decide
  obtain ⟨-, -, listed, -, -, -, primary⟩ := classify_labels routines
  exact ⟨distinct, known, listed "Services" known, _, List.mem_cons_self, primary distinct _ List.mem_cons_self⟩

end FlowAtlas
