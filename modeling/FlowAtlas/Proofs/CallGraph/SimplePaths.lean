import FlowAtlas.Proofs.CallGraph.Reaching

namespace FlowAtlas.CallGraph

/-- Calls one after the other from one routine to another, with no routine twice. -/
structure SimplePath (edges : List CallEdge) (start stop : String) (path : List String) : Prop where
  begins : path.head? = some start
  ends : path.getLast? = some stop
  calls : path.IsChain (Calls edges)
  distinct : path.Nodup

section trail

variable {edges : List CallEdge} {start stop : String} {path : List String}

theorem Trail.chain (trail : Trail edges start path) : path.IsChain fun callee caller => Calls edges caller callee := by
  induction trail with
  | here => exact .singleton _
  | call _ calls _ ih => exact .cons_cons calls ih

theorem trail_of_chain (ends : path.getLast? = some start) (distinct : path.Nodup)
    (chain : path.IsChain fun callee caller => Calls edges caller callee) : Trail edges start path := by
  induction chain with
  | nil => cases ends
  | singleton id =>
      obtain rfl : id = start := Option.some.inj ends
      exact .here
  | cons_cons calls _ ih =>
      obtain ⟨fresh, others⟩ := List.nodup_cons.mp distinct
      rw [List.getLast?_cons_cons] at ends
      exact (ih ends others).call calls fresh

theorem trail_reverse_iff :
    Trail edges start path.reverse ∧ path.reverse.head? = some stop ↔ SimplePath edges start stop path := by
  have turned : (path.reverse.IsChain fun callee caller => Calls edges caller callee) ↔ path.IsChain (Calls edges) :=
    List.isChain_reverse
  rw [List.head?_reverse]
  constructor
  · intro both
    obtain ⟨trail, ends⟩ := both
    obtain ⟨front, same⟩ := trail.begins
    have begins : path.reverse.getLast? = some start := by
      rw [same, List.getLast?_concat]
    rw [List.getLast?_reverse] at begins
    exact ⟨begins, ends, turned.mp trail.chain, List.nodup_reverse.mp trail.nodup⟩
  · intro simple
    have begins : path.reverse.getLast? = some start := by
      rw [List.getLast?_reverse]
      exact simple.begins
    exact ⟨trail_of_chain begins (List.nodup_reverse.mpr simple.distinct) (turned.mpr simple.calls), simple.ends⟩

end trail

section levels

variable {graph : CallGraph} {start stop : String} {count : Nat} {paths : List (List String)}

/-- The paths of one round: different trails of one length. -/
structure Level (graph : CallGraph) (start : String) (count : Nat) (paths : List (List String)) : Prop where
  distinct : paths.Nodup
  trails : ∀ path ∈ paths, Trail graph.edges start path
  length : ∀ path ∈ paths, path.length = count

theorem level_start (graph : CallGraph) (start : String) : Level graph start 1 [[start]] := by
  constructor
  case distinct => exact List.nodup_singleton _
  case trails =>
    intro path member
    rw [List.mem_singleton.mp member]
    exact .here
  case length =>
    intro path member
    rw [List.mem_singleton.mp member]
    rfl

theorem extend_nodup (coherent : graph.Coherent) (path : List String) : (graph.extend path).Nodup := by
  cases path with
  | nil => exact List.nodup_nil
  | cons last path =>
      apply List.Nodup.map
      · exact fun _ _ same => (List.cons.inj same).1
      · exact (calleesOf_nodup coherent last).filter _

theorem Level.next (coherent : graph.Coherent) (level : Level graph start count paths) (going : List String → Bool) :
    Level graph start (count + 1) ((paths.filter going).flatMap graph.extend) := by
  have extended : ∀ base ∈ paths.filter going, ∀ path ∈ graph.extend base,
      Trail graph.edges start path ∧ ∃ callee, path = callee :: base := by
    intro base among path member
    exact (mem_extend coherent (level.trails base (List.mem_of_mem_filter among))).mp member
  constructor
  case distinct =>
    apply List.nodup_flatMap.mpr
    constructor
    · exact fun base _ => extend_nodup coherent base
    · apply (level.distinct.filter going).pairwise_of_forall_ne
      intro first among second within apart path ofFirst ofSecond
      obtain ⟨-, _, longer⟩ := extended first among path ofFirst
      obtain ⟨-, _, same⟩ := extended second within path ofSecond
      rw [longer] at same
      exact apart (List.cons.inj same).2
  case trails =>
    intro path member
    obtain ⟨base, among, step⟩ := List.mem_flatMap.mp member
    exact (extended base among path step).1
  case length =>
    intro path member
    obtain ⟨base, among, step⟩ := List.mem_flatMap.mp member
    obtain ⟨-, callee, same⟩ := extended base among path step
    rw [same, List.length_cons, level.length base (List.mem_of_mem_filter among)]

structure Listed (count : Nat) (found : List (List String)) : Prop where
  distinct : found.Nodup
  ordered : found.Pairwise fun shorter longer => shorter.length ≤ longer.length
  least : ∀ path ∈ found, count ≤ path.length

theorem Level.listed (level : Level graph start count paths) {later : List (List String)}
    (others : Listed (count + 1) later) (done : List String → Bool) : Listed count (paths.filter done ++ later) := by
  have exactly : ∀ path ∈ paths.filter done, path.length = count :=
    fun path member => level.length path (List.mem_of_mem_filter member)
  constructor
  case distinct =>
    apply List.Nodup.append (level.distinct.filter done) others.distinct
    intro path first second
    have short := exactly path first
    have long := others.least path second
    omega
  case ordered =>
    apply List.pairwise_append.mpr
    refine ⟨?_, others.ordered, ?_⟩
    · apply List.pairwise_of_forall_mem_list
      intro first among second within
      rw [exactly first among, exactly second within]
    · intro first among second within
      have short := exactly first among
      have long := others.least second within
      omega
  case least =>
    intro path member
    rcases List.mem_append.mp member with first | second
    · exact Nat.le_of_eq (exactly path first).symm
    · exact Nat.le_of_succ_le (others.least path second)

theorem pathsFrom_listed (coherent : graph.Coherent) (stop : String) (rounds : Nat) : ∀ {count : Nat}
    {paths : List (List String)}, Level graph start count paths →
      Listed count (graph.pathsFrom stop rounds paths) := by
  induction rounds with
  | zero => exact fun _ => ⟨List.nodup_nil, List.Pairwise.nil, nofun⟩
  | succ rounds ih =>
      intro count paths level
      rw [pathsFrom_succ]
      exact level.listed (ih (level.next coherent _)) _

theorem pathsFrom_steady (coherent : graph.Coherent) (held : start ∈ graph.ids) (stop : String) (more rounds : Nat) :
    ∀ {count : Nat} {paths : List (List String)}, Level graph start count paths →
      graph.ids.length < count + rounds →
        graph.pathsFrom stop (rounds + more) paths = graph.pathsFrom stop rounds paths := by
  induction rounds with
  | zero =>
      intro count paths level enough
      have none : paths = [] := by
        rw [List.eq_nil_iff_forall_not_mem]
        intro path member
        have bound := (level.trails path member).length_le coherent held
        rw [level.length path member] at bound
        omega
      rw [none, pathsFrom_nil, pathsFrom_nil]
  | succ rounds ih =>
      intro count paths level enough
      rw [Nat.add_right_comm, pathsFrom_succ, pathsFrom_succ]
      congr 1
      apply ih (level.next coherent _)
      omega

end levels

section paths

variable {graph : CallGraph} (coherent : graph.Coherent) (start stop : String) (limit : Int)

include coherent

theorem mem_paths_iff (path : List String) :
    path ∈ graph.paths start stop limit ↔ (start ∈ graph.ids ∧ stop ∈ graph.ids) ∧
      SimplePath graph.edges start stop path ∧ (path.length : Int) - 1 ≤ limit := by
  have bound : (path.length : Int) ≤ limit + 1 ↔ (path.length : Int) - 1 ≤ limit := by omega
  rw [mem_paths coherent, ← trail_reverse_iff, bound]
  exact and_congr_right fun _ => and_assoc.symm

theorem paths_listed : Listed 1 (graph.paths start stop limit) := by
  rw [paths]
  split
  · have listed := pathsFrom_listed coherent stop (limit + 1).toNat (level_start graph start)
    constructor
    case distinct => exact listed.distinct.map List.reverse_injective
    case ordered =>
      apply List.pairwise_map.mpr
      apply listed.ordered.imp
      intro shorter longer bound
      rwa [List.length_reverse, List.length_reverse]
    case least =>
      intro path member
      obtain ⟨turned, among, rfl⟩ := List.mem_map.mp member
      rw [List.length_reverse]
      exact listed.least turned among
  · exact ⟨List.nodup_nil, List.Pairwise.nil, List.forall_mem_nil _⟩

theorem paths_min : graph.paths start stop limit = graph.paths start stop (min limit graph.ids.length) := by
  rw [paths, paths]
  split
  · rename_i known
    have held : start ∈ graph.ids := Table.has_iff.mp (Bool.and_eq_true_iff.mp known).1
    apply run_min fun rounds => (graph.pathsFrom stop rounds [[start]]).map List.reverse
    intro more
    rw [pathsFrom_steady coherent held stop more _ (level_start graph start)]
    omega
  · rfl

end paths

/-- Whatever was added to a graph in whatever order, the paths between two routines are the simple ones of at most so
many calls, each once and shorter ones first. There are none from or to an unknown routine, and a limit beyond the
number of routines adds none. -/
theorem ofAdditions_paths (additions : List Addition) (start stop : String) (limit : Int) :
    let graph := ofAdditions additions
    let found := graph.paths start stop limit
    (∀ path, path ∈ found ↔ (start ∈ graph.ids ∧ stop ∈ graph.ids) ∧
      SimplePath graph.edges start stop path ∧ (path.length : Int) - 1 ≤ limit) ∧
      found.Nodup ∧ (found.Pairwise fun shorter longer => shorter.length ≤ longer.length) ∧
      (start ∉ graph.ids ∨ stop ∉ graph.ids → found = []) ∧
      found = graph.paths start stop (min limit graph.ids.length) := by
  intro graph found
  have coherent : graph.Coherent := ofAdditions_coherent additions
  have listed : Listed 1 found := paths_listed coherent start stop limit
  refine ⟨mem_paths_iff coherent start stop limit, listed.distinct, listed.ordered, ?_,
    paths_min coherent start stop limit⟩
  intro unknown
  rw [List.eq_nil_iff_forall_not_mem]
  intro path member
  obtain ⟨both, -⟩ := (mem_paths_iff coherent start stop limit path).mp member
  rcases unknown with fresh | fresh
  · exact fresh both.1
  · exact fresh both.2

example :
    let plain (id : String) : Routine := { id, name := id, file := "f", line := 1 }
    let graph := ofAdditions [.node (plain "a"), .node (plain "b"), .node (plain "c"), .edge ⟨"a", "b", 1⟩,
      .edge ⟨"b", "c", 2⟩, .edge ⟨"c", "a", 3⟩, .edge ⟨"a", "c", 4⟩, .edge ⟨"a", "c", 5⟩]
    graph.paths "a" "c" 9 = [["a", "c"], ["a", "b", "c"]] ∧ graph.paths "a" "a" 9 = [["a"]] ∧
      graph.paths "a" "c" 0 = [] := by
  decide

end FlowAtlas.CallGraph
