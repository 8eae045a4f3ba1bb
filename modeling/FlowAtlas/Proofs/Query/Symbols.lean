import FlowAtlas.CommandLine.Running
import FlowAtlas.Proofs.Analysis.Consistent
import FlowAtlas.Proofs.CallGraph.Reports
import FlowAtlas.Proofs.Tree.Plain
import FlowAtlas.Query.Answer

namespace FlowAtlas

/-- The ids that a symbol means: the id itself, else that of every routine of the name, in order. -/
def meant (routines : List Routine) (symbol : String) : List String :=
  if symbol ∈ routines.map (·.id) then [symbol]
  else (routines.filter fun routine => routine.name = symbol).map (·.id)

theorem meant_eq_nil_iff {routines : List Routine} {symbol : String} :
    meant routines symbol = [] ↔ ∀ routine ∈ routines, routine.id ≠ symbol ∧ routine.name ≠ symbol := by
  rw [meant]
  split
  · rename_i known
    obtain ⟨routine, member, same⟩ := List.mem_map.mp known
    constructor
    · intro empty
      cases empty
    · intro unmeant
      exact absurd same (unmeant routine member).1
  · rename_i unknown
    have apart : ∀ routine ∈ routines, routine.id ≠ symbol := fun routine member same =>
      unknown (same ▸ List.mem_map_of_mem member)
    simp only [List.map_eq_nil_iff, List.filter_eq_nil_iff, decide_eq_true_eq]
    exact forall₂_congr fun routine member => (and_iff_right (apart routine member)).symm

namespace Landscape

variable {extraction : Extraction} (distinct : (extraction.routines.map (·.id)).Nodup)

include distinct

theorem ofExtraction_keys : (ofExtraction extraction).graph.ids = extraction.routines.map (·.id) := by
  rw [CallGraph.ids, ofExtraction_nodes distinct, Table.keys, List.map_map]
  rfl

theorem ofExtraction_coherent : (ofExtraction extraction).graph.Coherent := by
  have resolved := CallGraph.ofRoutines_coherent extraction.routines
  have same : (ofExtraction extraction).graph.ids = (CallGraph.ofRoutines extraction.routines).ids := by
    rw [ofExtraction_keys distinct, CallGraph.ids, (CallGraph.ofRoutines_parts distinct).1, Table.keys, List.map_map]
    rfl
  constructor
  case known =>
    rw [same]
    exact resolved.known
  case callees =>
    rw [same]
    exact resolved.callees
  case callers =>
    rw [same]
    exact resolved.callers

theorem ofExtraction_filed : (ofExtraction extraction).graph.Filed := by
  constructor
  case distinct =>
    rw [ofExtraction_keys distinct]
    exact distinct
  case own =>
    rw [ofExtraction_nodes distinct]
    intro entry member
    obtain ⟨routine, -, rfl⟩ := List.mem_map.mp member
    exact routine.placed_id _

theorem ofExtraction_find (symbol : String) :
    (ofExtraction extraction).graph.find symbol = meant extraction.routines symbol := by
  have known : (ofExtraction extraction).graph.nodes.has symbol = true ↔ symbol ∈ extraction.routines.map (·.id) := by
    rw [Table.has_iff, ← ofExtraction_keys distinct]
    rfl
  rw [CallGraph.find, meant, if_congr known rfl rfl, ofExtraction_nodes distinct, List.filter_map, List.map_map]
  rfl

end Landscape

namespace Surroundings

variable {surroundings : Surroundings} {trees : List Tree} (entries : surroundings.entries = .ok trees)
  (listed : Tree.WellListed trees) (config : Config) (root : String)

include entries listed

theorem extraction_distinct : ((surroundings.extraction config root).routines.map (·.id)).Nodup := by
  apply Extraction.ofWalk_ids_nodup
  apply Walk.ofEntries_paths_nodup config root surroundings.entries
  intro others same
  rw [entries] at same
  rwa [← Except.ok.inj same]

theorem graph_coherent : (surroundings.graph config root).Coherent :=
  Landscape.ofExtraction_coherent (extraction_distinct entries listed config root)

theorem graph_filed : (surroundings.graph config root).Filed :=
  Landscape.ofExtraction_filed (extraction_distinct entries listed config root)

theorem graph_find (symbol : String) : (surroundings.graph config root).find symbol =
    meant (surroundings.extraction config root).routines symbol :=
  Landscape.ofExtraction_find (extraction_distinct entries listed config root) symbol

theorem graph_reports (symbol : String) (limit : Nat) :
    let routines := (surroundings.extraction config root).routines
    let graph := surroundings.graph config root
    meant routines symbol ≠ [] → ∃ report, graph.report? symbol limit = some report ∧
      report.Tells (meant routines symbol) (routines.map (Routine.placed (Link.all routines)))
        ((Link.all routines).map Link.edge) limit ∧
      report.Merges ((meant routines symbol).map (graph.routineReport limit)) := by
  intro routines graph known
  have distinct := extraction_distinct entries listed config root
  have filed := graph_filed entries listed config root
  rw [← graph_find entries listed] at known ⊢
  rw [← Landscape.ofExtraction_routines distinct, ← Landscape.ofExtraction_edges distinct]
  obtain ⟨report, reported, tells⟩ :=
    CallGraph.report?_tells (graph_coherent entries listed config root) filed symbol limit known
  exact ⟨report, reported, tells, CallGraph.report?_merges filed symbol limit reported⟩

end Surroundings

namespace Query

variable {surroundings : Surroundings} {trees : List Tree}

theorem answer_callGraph (entries : surroundings.entries = .ok trees) (current : String) (target : Target)
    (symbol : String) (limit : Int) :
    answer surroundings current (.callGraph target symbol limit) =
      match (surroundings.graph target.config (Path.absolute current target.path)).report? symbol limit with
      | some report => .ok (.symbol report)
      | none => .error (.unknownSymbol symbol) := by
  simp only [answer, entries, answerAt, CallGraph.answerSymbol, root, Query.target]
  cases (surroundings.graph target.config (Path.absolute current target.path)).report? symbol limit with
  | some report => rfl
  | none => rfl

end Query

namespace CommandLine.Task

/-- A task asks of a directory what a query of the service does. -/
structure Asks (task : Task) (content : Except PathFault (List UInt8)) (target : Target) (symbol : String)
    (limit : Int) : Prop where
  path : task.path = .given target.path
  config : task.resolve content = .ok (.ok target.config)
  action : ∃ option depth, task.action = .callGraph (.given symbol) option ∧ useOption option = .ok depth ∧
    depth.getD usualLimit = limit

variable {surroundings : Surroundings} {trees : List Tree} {task : Task} {content : Except PathFault (List UInt8)}
  {target : Target} {symbol : String} {limit : Int}

theorem Asks.run_callGraph (asks : task.Asks content target symbol limit)
    (entries : surroundings.entries = .ok trees) (current : String) :
    let root := Path.absolute current target.path
    let graph := surroundings.graph target.config root
    graph.find symbol ≠ [] → task.run surroundings current content =
      .ok
        { output := (RoutineReport.allToJson ((graph.find symbol).map (graph.routineReport limit))).indented ++ "\n"
          log := (surroundings.walk target.config root).log } := by
  intro root graph known
  obtain ⟨option, depth, action, used, rfl⟩ := asks.action
  have acted : task.run surroundings current content = act surroundings target.config root task.action := by
    simp only [run, asks.path, Argument.use, entries, asks.config]
    rfl
  rw [acted, action, act]
  simp only [Argument.use, used]
  cases found : graph.find symbol with
  | nil => contradiction
  | cons first rest =>
      simp only [bind, Except.bind, graph] at found ⊢
      rw [found]

end CommandLine.Task

namespace Query

/-- A symbol that nothing is called is unknown. For any other the service reports what its routines reach, each as
far away as from the nearest of them, and the command line reports the same for each of them. -/
theorem answer_callGraph_tells {surroundings : Surroundings} {trees : List Tree}
    (entries : surroundings.entries = .ok trees) (listed : Tree.WellListed trees) (current : String)
    (target : Target) (symbol : String) (limit : Nat) :
    let root := Path.absolute current target.path
    let routines := (surroundings.extraction target.config root).routines
    let answer := answer surroundings current (.callGraph target symbol limit)
    ((∃ fault, answer = .error fault ∧ fault.status = 404) ↔
      ∀ routine ∈ routines, routine.id ≠ symbol ∧ routine.name ≠ symbol) ∧
    ((∃ routine ∈ routines, routine.id = symbol ∨ routine.name = symbol) →
      ∃ report, answer = .ok (.symbol report) ∧ report.symbol = symbol ∧
        report.Tells (meant routines symbol) (routines.map (Routine.placed (Link.all routines)))
          ((Link.all routines).map Link.edge) limit ∧
        ∀ (task : CommandLine.Task) (content : Except PathFault (List UInt8)),
          task.Asks content target symbol limit →
            ∃ reports, task.run surroundings current content =
              .ok
                { output := (RoutineReport.allToJson reports).indented ++ "\n"
                  log := (surroundings.walk target.config root).log } ∧
              report.Merges reports) := by
  intro root routines answer
  have answered : answer = _ := answer_callGraph entries current target symbol limit
  have found := Surroundings.graph_find entries listed target.config root symbol
  have reports := Surroundings.graph_reports entries listed target.config root symbol limit
  constructor
  · rw [← meant_eq_nil_iff, answered]
    constructor
    · rintro ⟨fault, failed, -⟩
      by_contra known
      obtain ⟨report, reported, -⟩ := reports known
      rw [reported] at failed
      cases failed
    · intro unmeant
      have unreported : (surroundings.graph target.config root).report? symbol limit = none := by
        rw [CallGraph.report?, found, unmeant]
      rw [unreported]
      exact ⟨_, rfl, rfl⟩
  · rintro ⟨routine, member, named⟩
    have known : meant routines symbol ≠ [] := fun empty =>
      absurd named (not_or.mpr (meant_eq_nil_iff.mp empty routine member))
    obtain ⟨report, reported, tells, merges⟩ := reports known
    rw [answered, reported]
    refine ⟨report, rfl, ?_, tells, fun task content asks => ⟨_, ?_, merges⟩⟩
    · rw [CallGraph.report?_eq _ symbol limit (found ▸ known)] at reported
      rw [← Option.some.inj reported]
    · have shown := asks.run_callGraph entries current (found ▸ known)
      rwa [found] at shown

theorem answer_callGraph_tells_overlapping :
    let files := [("a.py", "def f(): h()\n"), ("b.py", "def f(): g()\ndef g(): h()\ndef h(): pass\n")]
    let trees := files.map fun file => Tree.plain file.1 file.2
    let target : Target := ⟨"/src", {}⟩
    let root := Path.absolute "/" target.path
    let routines := ((Surroundings.plain files).extraction target.config root).routines
    let task : CommandLine.Task := { path := .given "/src", action := .callGraph (.given "f") (some (.given 2)) }
    Tree.WellListed trees ∧ meant routines "f" = ["a.py:f", "b.py:f"] ∧ task.Asks (.error .missing) target "f" 2 ∧
      ∃ report reports, answer (.plain files) "/" (.callGraph target "f" 2) = .ok (.symbol report) ∧
        report.Tells (meant routines "f") (routines.map (Routine.placed (Link.all routines)))
          ((Link.all routines).map Link.edge) 2 ∧
        task.run (.plain files) "/" (.error .missing) =
          .ok
            { output := (RoutineReport.allToJson reports).indented ++ "\n"
              log := ((Surroundings.plain files).walk target.config root).log } ∧
        report.Merges reports := by
  intro files trees target root routines task
  have listed : Tree.WellListed trees := by
    simp [trees, files, Tree.plain, Tree.WellListed, Tree.WellNamed, Tree.name]
  have asks : task.Asks (.error .missing) target "f" 2 := ⟨rfl, rfl, _, _, rfl, rfl, rfl⟩
  have both : meant routines "f" = ["a.py:f", "b.py:f"] := by
    have read : routines = plainRoutines files := Surroundings.plain_routines (by decide) (by decide) root
    rw [read]
    decide +kernel
  have known : ∃ routine ∈ routines, routine.id = "f" ∨ routine.name = "f" := by
    by_contra unknown
    simp only [not_exists, not_and, not_or] at unknown
    rw [meant_eq_nil_iff.mpr unknown] at both
    cases both
  have entries : (Surroundings.plain files).entries = .ok trees := rfl
  obtain ⟨report, answered, -, tells, shown⟩ := (answer_callGraph_tells entries listed "/" target "f" 2).2 known
  obtain ⟨reports, run, merges⟩ := shown task (.error .missing) asks
  exact ⟨listed, both, asks, report, reports, answered, tells, run, merges⟩

end Query

end FlowAtlas
