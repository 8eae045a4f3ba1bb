import FlowAtlas.Proofs.Diagram.Flow

/-! A chain is drawn node by node, and the diagram of any selection is a tree. -/

namespace FlowAtlas.Diagram

theorem Leaves.mono {nodes more : List Node} {node : Node} {edges : List Edge} (leaves : Leaves nodes node edges)
    (kept : nodes ⊆ more) : Leaves more node edges := by
  refine ⟨?_, leaves.ending, ?_⟩
  · intro style
    obtain ⟨alternative, member, next, among, facts⟩ := leaves.decision style
    exact ⟨alternative, kept member, next, kept among, facts⟩
  · intro undecided unfinished own
    obtain ⟨next, among, only⟩ := leaves.passing undecided unfinished own
    exact ⟨next, kept among, only⟩

/-- What a chain has drawn up to its last node. The trunk is the way to that node; all others are settled. -/
structure Chain.Draws (chain : Chain) (root : Node) (rest : List Node) (trunk : List String) (node : Node) : Prop where
  nodes : chain.nodes = root :: rest
  drawn : Drawn root rest chain.edges
  entry : root.style = .entry
  others : ∀ other ∈ rest, other.style ≠ .entry
  last : chain.last = node.id
  member : node ∈ root :: rest
  route : Route chain.edges root.id trunk node.id
  passes : ∀ other ∈ root :: rest, other.routineId.isSome → other.id ∈ trunk
  settled : ∀ other ∈ root :: rest, other ≠ node →
    Leaves (root :: rest) other (chain.edges.filter fun edge => edge.source == other.id)

/-- How a chain goes on from its last node: by the only edge, or by the other way out of a decision. -/
inductive Chain.Ready (chain : Chain) (node : Node) : Prop where
  | passing (pending : chain.pending = none) (undecided : node.style ≠ .decision)
      (bare : (chain.edges.filter fun edge => edge.source == node.id) = [])
  | deciding (pending : chain.pending = some "Yes") (style : node.style = .decision) (alternative : Node)
      (known : alternative ∈ chain.nodes) (other : alternative.IsAlternative)
      (one : (chain.edges.filter fun edge => edge.source == node.id) = [⟨node.id, alternative.id, some "No"⟩])

/-- A chain that is not at its result. -/
structure Chain.Runs (chain : Chain) (root : Node) (rest : List Node) (trunk : List String) (node : Node) : Prop
    extends chain.Draws root rest trunk node where
  unfinished : ∀ other ∈ root :: rest, other.style ≠ .result
  own : ¬ node.IsAlternative
  ready : chain.Ready node

theorem last_leaves (node : Node) (target : String) (label : Option String) (edges : List Edge) :
    ((edges ++ [Edge.mk node.id target label]).filter fun edge => edge.source == node.id) =
      (edges.filter fun edge => edge.source == node.id) ++ [Edge.mk node.id target label] := by
  simp

namespace Chain

variable {chain : Chain} {root node new : Node} {rest : List Node} {trunk : List String}

theorem Draws.nextId (draws : chain.Draws root rest trunk node) : chain.nextId = nodeId (rest.length + 1) := by
  rw [Chain.nextId, draws.nodes, List.length_cons]

theorem Draws.others_leave (draws : chain.Draws root rest trunk node) {other : Node} (member : other ∈ root :: rest)
    (apart : other ≠ node) (target : String) (label : Option String) :
    ((chain.edges ++ [Edge.mk node.id target label]).filter fun edge => edge.source == other.id) =
      chain.edges.filter fun edge => edge.source == other.id := by
  have differ : (node.id == other.id) = false :=
    beq_eq_false_iff_ne.mpr fun same => apart (draws.drawn.eq_of_id draws.member member same).symm
  rw [List.filter_append, List.filter_singleton, differ]
  exact List.append_nil _

theorem Draws.add (draws : chain.Draws root rest trunk node) (new : Node) (named : new.id = chain.nextId)
    (further : new.style ≠ .entry) (label : Option String) :
    let edges := chain.edges ++ [Edge.mk node.id new.id label]
    Drawn root (rest ++ [new]) edges ∧ (∀ other ∈ rest ++ [new], other.style ≠ .entry) ∧
      (edges.filter fun edge => edge.source == new.id) = [] ∧
      ∀ other ∈ root :: (rest ++ [new]), other ≠ node → other ≠ new →
        Leaves (root :: (rest ++ [new])) other (edges.filter fun edge => edge.source == other.id) := by
  intro edges
  have number := named.trans draws.nextId
  have drawn : Drawn root (rest ++ [new]) edges := draws.drawn.add draws.member number label
  refine ⟨drawn, ?_, ?_, ?_⟩
  · intro other member
    rcases List.mem_append.mp member with old | here
    · exact draws.others other old
    · rw [List.mem_singleton.mp here]
      exact further
  · have fresh : (node.id == new.id) = false := by
      refine beq_eq_false_iff_ne.mpr fun same => ?_
      have distinct := drawn.distinct
      rw [← List.cons_append, List.map_append] at distinct
      exact (List.nodup_append.mp distinct).2.2 _ (List.mem_map_of_mem draws.member) _ (by simp) same
    rw [List.filter_append, draws.drawn.add_leaves number, List.filter_singleton, fresh]
    rfl
  · intro other member apart old
    rw [← List.cons_append] at member
    have before := (List.mem_append.mp member).resolve_right fun here => old (List.mem_singleton.mp here)
    rw [draws.others_leave before apart]
    exact (draws.settled other before apart).mono (by simp)

theorem Runs.leaves (runs : chain.Runs root rest trunk node) :
    Leaves (root :: (rest ++ [new])) node
      ((chain.edges ++ [Edge.mk node.id new.id chain.pending]).filter fun edge => edge.source == node.id) := by
  have ongoing : ¬ (node.style = .result ∨ node.IsAlternative) := by
    rintro (ends | ends)
    · exact runs.unfinished node runs.member ends
    · exact runs.own ends
  rw [last_leaves]
  cases runs.ready with
  | passing pending undecided bare =>
      rw [bare, pending]
      exact ⟨fun style => absurd style undecided, fun ends => absurd ends ongoing,
        fun _ _ _ => ⟨new, by simp, rfl⟩⟩
  | deciding pending style alternative known other one =>
      rw [runs.nodes] at known
      have member : alternative ∈ root :: (rest ++ [new]) := by
        rw [← List.cons_append]
        exact List.mem_append_left _ known
      rw [one, pending]
      exact ⟨fun _ => ⟨alternative, member, new, by simp, other, rfl⟩, fun ends => absurd ends ongoing,
        fun undecided => absurd style undecided⟩

theorem Runs.hang (runs : chain.Runs root rest trunk node) (label : String) (style : Style) (shape : Shape)
    (routineId : Option String) (further : style ≠ .entry) :
    let new : Node := ⟨chain.nextId, label, style, shape, routineId⟩
    let hung := chain.hang label style shape routineId
    hung.Draws root (rest ++ [new]) (trunk ++ [new.id]) new ∧
      (hung.edges.filter fun edge => edge.source == new.id) = [] := by
  intro new hung
  obtain ⟨drawn, others, bare, settled⟩ := runs.add new rfl further chain.pending
  have edges : hung.edges = chain.edges ++ [Edge.mk node.id new.id chain.pending] := by
    rw [← runs.last]
    rfl
  have nodes : hung.nodes = root :: (rest ++ [new]) := by
    have added : hung.nodes = chain.nodes ++ [new] := rfl
    rw [added, runs.nodes, List.cons_append]
  rw [← edges] at drawn bare settled
  refine ⟨⟨nodes, drawn, runs.entry, others, rfl, by simp, ?_, ?_, ?_⟩, bare⟩
  · have member : Edge.mk node.id new.id chain.pending ∈ hung.edges := by
      rw [edges]
      simp
    have kept : chain.edges ⊆ hung.edges := by
      rw [edges]
      exact List.subset_append_left _ _
    exact Route.step (runs.route.mono kept) member
  · intro other member called
    rw [← List.cons_append] at member
    rcases List.mem_append.mp member with old | here
    · exact List.mem_append_left _ (runs.passes other old called)
    · rw [List.mem_singleton.mp here]
      simp
  · intro other member apart
    by_cases last : other = node
    · rw [last, edges]
      exact runs.leaves
    · exact settled other member last apart

theorem Runs.pass (runs : chain.Runs root rest trunk node) (label : String) {style : Style} (shape : Shape)
    (id : String) (further : style ≠ .entry) (undecided : style ≠ .decision) (unfinished : style ≠ .result) :
    ∃ rest trunk node, (chain.hang label style shape (some id)).Runs root rest trunk node := by
  obtain ⟨draws, bare⟩ := runs.hang label style shape (some id) further
  refine ⟨_, _, _, draws, ?_, nofun, .passing rfl undecided bare⟩
  intro other member
  rw [← List.cons_append] at member
  rcases List.mem_append.mp member with old | here
  · exact runs.unfinished other old
  · rw [List.mem_singleton.mp here]
    exact unfinished

theorem Runs.decide (runs : chain.Runs root rest trunk node) (label : String) (shape : Shape) (id : String) :
    ∃ rest trunk node, (chain.hang label .decision shape (some id)).branch.Runs root rest trunk node := by
  -- A decision with its alternative; the chain runs on from the decision.
  let hung := chain.hang label .decision shape (some id)
  let node : Node := ⟨chain.nextId, label, .decision, shape, some id⟩
  let new : Node := { id := hung.nextId, label := alternativeLabel, style := .process }
  have notEntry : Style.process ≠ .entry := by decide
  obtain ⟨draws, bare⟩ : hung.Draws root (rest ++ [node]) (trunk ++ [node.id]) node ∧ _ :=
    runs.hang label .decision shape (some id) (by decide)
  -- The alternative hangs from the decision, which stays the last node: only its second edge settles it.
  obtain ⟨drawn, others, none, settled⟩ := draws.add new rfl notEntry (some "No")
  have nodes : hung.branch.nodes = root :: (rest ++ [node] ++ [new]) := by
    have added : hung.branch.nodes = hung.nodes ++ [new] := rfl
    rw [added, draws.nodes, List.cons_append]
  have edges : hung.branch.edges = hung.edges ++ [Edge.mk node.id new.id (some "No")] := rfl
  rw [← edges] at drawn none settled
  refine ⟨rest ++ [node] ++ [new], trunk ++ [node.id], node,
    ⟨nodes, drawn, runs.entry, others, rfl, by simp, ?_, ?_, ?_⟩, ?_, nofun, ?_⟩
  · exact draws.route.mono (List.subset_append_left _ _)
  · intro other member called
    rw [← List.cons_append] at member
    rcases List.mem_append.mp member with old | here
    · exact draws.passes other old called
    · rw [List.mem_singleton.mp here] at called
      cases called
  · intro other member apart
    by_cases last : other = new
    · rw [last, none]
      exact ⟨nofun, fun _ => rfl, fun _ _ ongoing => absurd ⟨rfl, rfl⟩ ongoing⟩
    · exact settled other member apart last
  · intro other member
    simp only [List.mem_cons, List.mem_append, List.not_mem_nil, or_false] at member
    rcases member with rfl | (old | rfl) | rfl
    · exact runs.unfinished _ List.mem_cons_self
    · exact runs.unfinished other (List.mem_cons_of_mem _ old)
    · nofun
    · nofun
  · refine .deciding rfl rfl new ?_ ⟨rfl, rfl⟩ ?_
    · rw [nodes]
      simp
    · rw [edges, last_leaves node, bare]
      rfl

theorem start_runs (entry : Option Routine) : ∃ root rest trunk node, (start entry).Runs root rest trunk node := by
  obtain ⟨root, nodes, edges, last, pending, style, own, first⟩ : ∃ root : Node, (start entry).nodes = [root] ∧
      (start entry).edges = [] ∧ (start entry).last = root.id ∧ (start entry).pending = none ∧
      root.style = .entry ∧ ¬ root.IsAlternative ∧ root.id = nodeId 0 := by
    cases entry with
    | none =>
        have own : startLabel ≠ alternativeLabel := by decide
        exact ⟨{ id := nodeId 0, label := startLabel, style := .entry }, rfl, rfl, rfl, rfl, rfl,
          fun alternative => own alternative.1, rfl⟩
    | some routine =>
        exact ⟨{ id := nodeId 0, label := Naming.title routine.name, style := .entry, routineId := some routine.id },
          rfl, rfl, rfl, rfl, rfl, fun alternative => Option.some_ne_none _ alternative.2, rfl⟩
  refine ⟨root, [], [root.id], root, ⟨nodes, ?_, style, by simp, last, by simp, .start, by simp, ?_⟩, ?_, own, ?_⟩
  · rw [edges]
    exact ⟨by simp [first], rfl, by simp⟩
  · exact fun other member apart => absurd (List.mem_singleton.mp member) apart
  · intro other member ends
    rw [List.mem_singleton.mp member, style] at ends
    cases ends
  · refine .passing pending ?_ (by simp [edges])
    rw [style]
    decide

theorem hangInitializer_runs (runs : chain.Runs root rest trunk node) (routine : Routine) :
    ∃ rest trunk node, (chain.hangInitializer routine).Runs root rest trunk node :=
  runs.pass _ .box routine.id (by decide) (by decide) (by decide)

theorem hangStep_runs (runs : chain.Runs root rest trunk node) (layers : Table (List String)) (routine : Routine) :
    ∃ rest trunk node, (chain.hangStep layers routine).Runs root rest trunk node := by
  rw [hangStep]
  split
  · exact runs.decide _ .diamond routine.id
  · dsimp only
    split
    · exact runs.pass _ .box routine.id (by decide) (by decide) (by decide)
    · exact runs.pass _ .box routine.id (by decide) (by decide) (by decide)

end Chain

theorem Chain.Runs.flows {chain : Chain} {root node : Node} {rest : List Node} {trunk : List String}
    (runs : chain.Runs root rest trunk node) (subgraphs : List Subgraph) :
    let done := chain.hang resultLabel .result .box none
    ∃ last, Flows ⟨done.nodes, done.edges, subgraphs⟩ root rest last := by
  intro done
  let new : Node := ⟨chain.nextId, resultLabel, .result, .box, none⟩
  obtain ⟨draws, bare⟩ : done.Draws root (rest ++ [new]) (trunk ++ [new.id]) new ∧ _ :=
    runs.hang resultLabel .result .box none (by decide)
  have drawn := draws.drawn
  refine ⟨new, draws.nodes, ?_, ?_, ?_, ?_, drawn.root_edges, fun _ member => drawn.incoming member, ?_, ?_, ?_⟩
  · rw [draws.nodes]
    exact drawn.distinct
  · rw [draws.nodes]
    exact drawn.forward
  · rw [draws.nodes]
    intro other member
    constructor
    · intro style
      exact (List.mem_cons.mp member).resolve_right fun behind => draws.others other behind style
    · rintro rfl
      exact draws.entry
  · rw [draws.nodes]
    intro other member
    constructor
    · intro style
      rw [← List.cons_append] at member
      rcases List.mem_append.mp member with old | here
      · exact absurd style (runs.unfinished other old)
      · exact List.mem_singleton.mp here
    · rintro rfl
      rfl
  · rw [draws.nodes]
    intro other member
    by_cases last : other = new
    · rw [last, edgesFrom, bare]
      exact ⟨nofun, fun _ => rfl, fun _ ongoing => absurd rfl ongoing⟩
    · exact draws.settled other member last
  · rw [draws.nodes]
    exact fun _ member => drawn.reached member
  · rw [draws.nodes]
    intro path route
    have only : path = trunk ++ [new.id] :=
      draws.route.unique drawn.root_notMem drawn.targets_distinct path route
    rw [only]
    exact draws.passes

/-- The diagram of any selection is a tree, from its entry to its result. -/
theorem ofSelection_flows (selected : List Routine) (layers : Table (List String)) :
    ∃ root between last, Flows (ofSelection selected layers) root between last := by
  obtain ⟨root, started⟩ := Chain.start_runs (entryOf selected)
  have prepared := List.foldlRecOn ((afterEntry selected).filter (·.isInitializer)) Chain.hangInitializer
    (motive := fun chain => ∃ rest trunk node, chain.Runs root rest trunk node) started
    fun _ ⟨_, _, _, runs⟩ routine _ => Chain.hangInitializer_runs runs routine
  obtain ⟨rest, trunk, node, run⟩ := List.foldlRecOn
    ((afterEntry selected).filter fun routine => !routine.isInitializer) (Chain.hangStep layers)
    (motive := fun chain => ∃ rest trunk node, chain.Runs root rest trunk node) prepared
    fun _ ⟨_, _, _, runs⟩ routine _ => Chain.hangStep_runs runs layers routine
  obtain ⟨last, flows⟩ := run.flows (ofSelection selected layers).subgraphs
  exact ⟨root, rest, last, flows⟩

end FlowAtlas.Diagram
