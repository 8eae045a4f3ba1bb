import FlowAtlas.Analysis.Basic
import FlowAtlas.Proofs.CallGraph.Resolution
import FlowAtlas.Proofs.Extraction.Ids
import FlowAtlas.Proofs.Fields.Bounds
import FlowAtlas.Proofs.Ranking.Cap
import FlowAtlas.Proofs.Tree.Places

/-! No routine of a tree is lost on the way from its file to the analysis. -/

namespace FlowAtlas

namespace Extraction

def routinesIn (file : SourceText) : List Routine :=
  (file.text?.map fun text =>
    (ofText file.source.relativePath (String.ofList text) file.source.dialect).routines).getD []

theorem foldl_files_routines (files : List SourceText) : ∀ extraction : Extraction,
    (files.foldl (fun extraction file => (file.text?.map (extraction.addFile file.source)).getD extraction)
      extraction).routines = extraction.routines ++ files.flatMap routinesIn := by
  induction files with
  | nil => simp
  | cons file rest ih =>
      intro extraction
      rw [List.foldl_cons, ih, List.flatMap_cons, ← List.append_assoc]
      congr 1
      cases read : file.text? with
      | none => simp [routinesIn, read]
      | some text => simp [routinesIn, read, addFile, append]

theorem ofWalk_routines (walk : Walk) : (ofWalk walk).routines = walk.sources.flatMap routinesIn := by
  rw [ofWalk, foldl_files_routines]
  rfl

theorem routinesIn_nodup (file : SourceText) : ((routinesIn file).map (·.id)).Nodup := by
  rw [routinesIn]
  cases file.text? with
  | none => simp
  | some text => exact ofText_ids_nodup _ _ _

theorem routinesIn_ids (file : SourceText) :
    ∀ id ∈ (routinesIn file).map (·.id), IdIn file.source.relativePath id := by
  rw [routinesIn]
  cases file.text? with
  | none => simp
  | some text => exact ofText_ids_in _ _ _

theorem ofWalk_ids_nodup {walk : Walk} (paths : (walk.sources.map (·.source.relativePath)).Nodup) :
    ((ofWalk walk).routines.map (·.id)).Nodup := by
  rw [ofWalk_routines, List.map_flatMap, List.nodup_flatMap]
  refine ⟨fun file _ => routinesIn_nodup file, ?_⟩
  refine (List.pairwise_map.mp paths).imp ?_
  intro first second apart id early late
  exact apart (path_eq_of_idIn (routinesIn_ids first id early) (routinesIn_ids second id late))

end Extraction

/-- What extraction tells of a routine, without what later phases fill in. -/
def Routine.found (routine : Routine) : Routine :=
  { routine with
    entryPoint := false
    eventHandler := false
    businessLogic := false
    incoming := []
    importance := 0
    layers := []
    layer := none }

def Routine.placed (links : List Link) (routine : Routine) : Routine :=
  (routine.withIncoming links).classified.scored

theorem Routine.placed_found (links : List Link) (routine : Routine) :
    (routine.placed links).found = routine.found := by
  simp only [placed, found, scored, classified, flagged, withIncoming]

theorem Routine.placed_id (links : List Link) (routine : Routine) : (routine.placed links).id = routine.id := by
  simp only [placed, scored, classified, flagged, withIncoming]

theorem Landscape.ofExtraction_nodes {extraction : Extraction}
    (distinct : (extraction.routines.map (·.id)).Nodup) :
    (ofExtraction extraction).graph.nodes =
      extraction.routines.map fun routine => (routine.id, routine.placed (Link.all extraction.routines)) := by
  let resolved := CallGraph.ofRoutines extraction.routines
  let scored := (resolved.routines.map Routine.classified).map Routine.scored
  let entries : Table Routine := scored.map fun routine => (routine.id, routine)
  have known : scored = extraction.routines.map (Routine.placed (Link.all extraction.routines)) := by
    simp only [scored, resolved, CallGraph.ofRoutines_routines distinct, List.map_map]
    rfl
  have ids : entries.keys = extraction.routines.map (·.id) := by
    simp only [entries, known, Table.keys, List.map_map, Function.comp_def, Routine.placed_id]
  have same : resolved.nodes.keys = entries.keys := by
    rw [ids, (CallGraph.ofRoutines_parts distinct).1, Table.keys, List.map_map]
    rfl
  have apart : (@Table.keys Routine [] ++ entries.keys).Nodup := ids ▸ distinct
  have replaced := Table.foldl_put entries [] resolved.nodes same apart
  have nodes : (ofExtraction extraction).graph.nodes =
      scored.foldl (fun nodes routine => nodes.put routine.id routine) resolved.nodes := rfl
  rw [List.foldl_map] at replaced
  rw [nodes]
  refine replaced.trans ?_
  simp only [entries, known, List.map_map, List.nil_append, Function.comp_def, Routine.placed_id]

theorem Landscape.ofExtraction_routines {extraction : Extraction}
    (distinct : (extraction.routines.map (·.id)).Nodup) :
    (ofExtraction extraction).graph.routines =
      extraction.routines.map (Routine.placed (Link.all extraction.routines)) := by
  rw [CallGraph.routines, ofExtraction_nodes distinct, List.map_map]
  rfl

namespace Analysis

theorem ofExtraction_ok {config : Config} (accepted : config.Accepted) (root : String) (extraction : Extraction)
    (moment : Timestamp) : ∃ selected, ofExtraction config root extraction moment =
      .ok (ofSelection root extraction (.ofExtraction extraction) selected moment) := by
  have nonneg : 0 ≤ config.selectionCap := le_trans (by decide) accepted.cap
  let landscape := Landscape.ofExtraction extraction
  refine ⟨Selection.gather landscape.graph.routines landscape.layers config.selectionCap, ?_⟩
  rw [ofExtraction]
  simp only [select_ok nonneg]
  rfl

/-- Routines of a tree have different ids, and the analysis lists them all, in order and as they were found. -/
theorem ofEntries_routines {config : Config} (accepted : config.Accepted) (root : String)
    {entries : Except PathFault (List Tree)} (listed : ∀ trees, entries = .ok trees → Tree.WellListed trees)
    (moment : Timestamp) :
    let extraction := Extraction.ofWalk (Walk.ofEntries config root entries)
    (extraction.routines.map (·.id)).Nodup ∧
      ∃ analysis, ofEntries config root entries moment = .ok analysis ∧
        analysis.routines.map Routine.found = extraction.routines.map Routine.found ∧
        analysis.summary.routines = analysis.routines.length := by
  intro extraction
  have distinct : (extraction.routines.map (·.id)).Nodup :=
    Extraction.ofWalk_ids_nodup (Walk.ofEntries_paths_nodup config root entries listed)
  obtain ⟨selected, done⟩ := ofExtraction_ok accepted root extraction moment
  refine ⟨distinct, _, done, ?_, ?_⟩
  · simp only [ofSelection, Landscape.ofExtraction_routines distinct, List.map_map]
    exact List.map_congr_left fun routine _ => Routine.placed_found _ routine
  · simp only [ofSelection, Summary.ofExtraction, Landscape.ofExtraction_routines distinct, List.length_map]

/-- Two methods of one name in each of three files, whose names hold the marks that ids are made of. -/
theorem ofEntries_routines_marked :
    let bytes := "class A:\n def f(self):\n  f()\n def f(self): pass\n".toList.map fun c => UInt8.ofNat c.toNat
    let trees := [Tree.file "a:b.py" (.ok bytes), .file "a#3.py" (.ok bytes),
      .directory "a:b" [.file "A.f#4.py" (.ok bytes), .file "c.py" (.error .missing)]]
    let extraction := Extraction.ofWalk (Walk.ofEntries {} "/src" (.ok trees))
    let moment : Timestamp := { year := 2024, month := 1, day := 1 }
    Config.Accepted {} ∧ Tree.WellListed trees ∧ (extraction.routines.map (·.id)).Nodup ∧
      ∃ analysis, ofEntries {} "/src" (.ok trees) moment = .ok analysis ∧
        analysis.routines.map Routine.found = extraction.routines.map Routine.found ∧
        analysis.summary.routines = analysis.routines.length := by
  intro bytes trees extraction moment
  have listed : Tree.WellListed trees := by
    simp [trees, Tree.WellListed, Tree.WellNamed, Tree.name]
  have named : ∀ others, (.ok trees : Except PathFault (List Tree)) = .ok others → Tree.WellListed others := by
    intro others same
    rwa [← Except.ok.inj same]
  exact ⟨Config.default_accepted, listed, ofEntries_routines Config.default_accepted "/src" named _⟩

end Analysis

end FlowAtlas
