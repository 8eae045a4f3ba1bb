import FlowAtlas.Proofs.Query.Symbols

namespace FlowAtlas.Query

variable {surroundings : Surroundings} {trees : List Tree}

theorem answer_paths (entries : surroundings.entries = .ok trees) (current : String) (target : Target)
    (start stop : String) (limit : Int) :
    let graph := surroundings.graph target.config (Path.absolute current target.path)
    answer surroundings current (.paths target start stop limit) =
      match graph.find start, graph.find stop with
      | [], _ => .error (.unknownSymbol start)
      | _, [] => .error (.unknownSymbol stop)
      | first :: _, last :: _ => .ok (.paths (graph.pathReport first last limit)) := by
  intro graph
  have answered : answer surroundings current (.paths target start stop limit) =
      (graph.answerPaths start stop limit).map .paths := by
    simp only [answer, entries]
    rfl
  rw [answered, CallGraph.answerPaths, CallGraph.single, CallGraph.single]
  cases graph.find start with
  | nil => rfl
  | cons first others =>
      cases graph.find stop with
      | nil => rfl
      | cons last rest => rfl

/-- Where both symbols are known, the paths are between the first routines that they mean. They lead there exactly if
the report on the one lists the other, and the shortest of them has as many calls as that report says. -/
theorem answer_paths_follows (entries : surroundings.entries = .ok trees) (listed : Tree.WellListed trees)
    (current : String) (target : Target) (start stop : String) (limit : Nat)
    (led : ∀ fault, answer surroundings current (.paths target start stop limit) = .error fault →
      fault.status ≠ 404) :
    let routines := (surroundings.extraction target.config (Path.absolute current target.path)).routines
    ∃ report paths single, answer surroundings current (.callGraph target start limit) = .ok (.symbol report) ∧
      answer surroundings current (.paths target start stop limit) = .ok (.paths paths) ∧
      answer surroundings current (.callGraph target paths.start limit) = .ok (.symbol single) ∧
      paths.Follows report single (meant routines start) (meant routines stop) := by
  intro routines
  let graph := surroundings.graph target.config (Path.absolute current target.path)
  have coherent : graph.Coherent := Surroundings.graph_coherent entries listed _ _
  have filed : graph.Filed := Surroundings.graph_filed entries listed _ _
  have found : ∀ symbol, graph.find symbol = meant routines symbol := Surroundings.graph_find entries listed _ _
  rw [answer_paths entries] at led ⊢
  rw [← found, ← found]
  cases starts : graph.find start with
  | nil =>
      simp only [graph] at starts
      rw [starts] at led
      exact absurd rfl (led _ rfl)
  | cons first others =>
      cases stops : graph.find stop with
      | nil =>
          simp only [graph] at starts stops
          rw [starts, stops] at led
          exact absurd rfl (led _ rfl)
      | cons last rest =>
          have known : first ∈ graph.ids := CallGraph.find_subset graph start (starts ▸ List.mem_cons_self)
          obtain ⟨report, reported, tells⟩ :=
            CallGraph.report?_tells coherent filed start limit (starts ▸ List.cons_ne_nil _ _)
          obtain ⟨single, alone, one⟩ := CallGraph.report?_tells coherent filed first limit
            (CallGraph.find_of_mem known ▸ List.cons_ne_nil _ _)
          rw [starts] at tells
          rw [CallGraph.find_of_mem known] at one
          refine ⟨report, _, single, ?_, rfl, ?_, CallGraph.pathReport_follows coherent known tells one⟩
          · rw [answer_callGraph entries, reported]
          · rw [answer_callGraph entries]
            exact alone ▸ rfl

theorem answer_paths_follows_longer :
    let files := [("a.py", "def f(): g()\ndef g(): h()\ndef h(): f()\n"), ("b.py", "def f(): h()\n")]
    let trees := files.map fun file => Tree.plain file.1 file.2
    let target : Target := ⟨"/src", {}⟩
    let routines := ((Surroundings.plain files).extraction target.config (Path.absolute "/" target.path)).routines
    let paths : PathReport := ⟨"a.py:f", "a.py:h", [["a.py:f", "a.py:g", "a.py:h"]], 3⟩
    Tree.WellListed trees ∧ answer (.plain files) "/" (.paths target "f" "h" 3) = .ok (.paths paths) ∧
      ∃ report single, answer (.plain files) "/" (.callGraph target "f" 3) = .ok (.symbol report) ∧
        answer (.plain files) "/" (.callGraph target "a.py:f" 3) = .ok (.symbol single) ∧
        paths.Follows report single (meant routines "f") (meant routines "h") := by
  intro files trees target routines paths
  have listed : Tree.WellListed trees := by
    simp [trees, files, Tree.plain, Tree.WellListed, Tree.WellNamed, Tree.name]
  have entries : (Surroundings.plain files).entries = .ok trees := rfl
  have drawn : answer (.plain files) "/" (.paths target "f" "h" 3) = .ok (.paths paths) := by
    rw [answer_paths entries, Surroundings.plain_graph (by decide) (by decide)]
    decide +kernel
  have led : ∀ fault, answer (.plain files) "/" (.paths target "f" "h" 3) = .error fault → fault.status ≠ 404 := by
    intro fault failed
    rw [drawn] at failed
    cases failed
  obtain ⟨report, others, single, searched, same, alone, follows⟩ :=
    answer_paths_follows entries listed "/" target "f" "h" 3 led
  obtain rfl : paths = others := QueryAnswer.paths.inj (Except.ok.inj (drawn.symm.trans same))
  exact ⟨listed, drawn, report, single, searched, alone, follows⟩

/-- Of two routines of one name the second calls what is asked for, but paths begin at the first. -/
theorem answer_paths_elsewhere :
    let files := [("a.py", "def f(): pass\n"), ("b.py", "def f(): g()\ndef g(): pass\n")]
    let trees := files.map fun file => Tree.plain file.1 file.2
    let target : Target := ⟨"/src", {}⟩
    let routines := ((Surroundings.plain files).extraction target.config (Path.absolute "/" target.path)).routines
    Tree.WellListed trees ∧ ∃ report paths,
      answer (.plain files) "/" (.callGraph target "f" 5) = .ok (.symbol report) ∧
      answer (.plain files) "/" (.paths target "f" "g" 5) = .ok (.paths paths) ∧
      ¬ paths.Agrees report.reached (meant routines "g") := by
  intro files trees target routines
  have listed : Tree.WellListed trees := by
    simp [trees, files, Tree.plain, Tree.WellListed, Tree.WellNamed, Tree.name]
  have meant : meant routines "g" = ["b.py:g"] := by
    have read : routines = plainRoutines files := Surroundings.plain_routines (by decide) (by decide) _
    rw [read]
    decide +kernel
  have entries : (Surroundings.plain files).entries = .ok trees := rfl
  have drawn : answer (.plain files) "/" (.paths target "f" "g" 5) = .ok (.paths ⟨"a.py:f", "b.py:g", [], 5⟩) := by
    rw [answer_paths entries, Surroundings.plain_graph (by decide) (by decide)]
    decide +kernel
  have searched : ((Surroundings.plain files).graph target.config (Path.absolute "/" target.path)).report? "f" 5 |>.any
      fun report => report.reached.any fun met => met.routine.id == "b.py:g" := by
    rw [Surroundings.plain_graph (by decide) (by decide)]
    decide +kernel
  obtain ⟨report, reported, reached⟩ := (Option.any_eq_true _ _).mp searched
  obtain ⟨met, member, same⟩ := List.any_eq_true.mp reached
  refine ⟨listed, report, _, ?_, drawn, ?_⟩
  · rw [answer_callGraph entries, reported]
  · intro agrees
    apply agrees.leads.mpr ⟨met, member, ?_⟩ rfl
    rw [meant, beq_iff_eq.mp same]
    exact List.mem_singleton_self _

end FlowAtlas.Query
