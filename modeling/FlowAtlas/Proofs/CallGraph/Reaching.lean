import FlowAtlas.Proofs.CallGraph.Building
import FlowAtlas.Proofs.CallGraph.Paths

namespace FlowAtlas.CallGraph

theorem run_min {α : Type} (run : Nat → α) {bound : Nat} (steady : ∀ more, run (bound + 1 + more) = run (bound + 1))
    (limit : Int) : run (limit + 1).toNat = run (min limit bound + 1).toNat := by
  rcases Int.le_total limit bound with short | long
  · rw [Int.min_eq_left short]
  · have rounds : (limit + 1).toNat = bound + 1 + (limit - bound).toNat := by omega
    have fewest : ((bound : Int) + 1).toNat = bound + 1 := by omega
    rw [Int.min_eq_right long, rounds, fewest, steady]

section bounds

variable {graph : CallGraph} (coherent : graph.Coherent) {start id : String}

include coherent

theorem Trail.length_le {path : List String} (trail : Trail graph.edges start path) (held : start ∈ graph.ids) :
    path.length ≤ graph.ids.length := by
  have within : path ⊆ graph.ids := by
    intro id member
    obtain ⟨front, rest, same⟩ := List.append_of_mem member
    rw [same] at trail
    exact (trail.behind.way rfl).known coherent held
  exact (trail.nodup.subperm within).length_le

theorem Distance.lt_length {count : Nat} (distance : Distance graph.edges start id count) (held : start ∈ graph.ids) :
    count < graph.ids.length := by
  obtain ⟨rest, -, trail⟩ := distance.1.trail
  have least : count ≤ rest.length := distance.2 (trail.way rfl)
  have bound := trail.length_le coherent held
  rw [List.length_cons] at bound
  omega

end bounds

section order

variable {graph : CallGraph} {depth : Nat} {met : Table Nat}

/-- Nearer routines stand first, and none is farther than the depth. -/
structure Ordered (depth : Nat) (met : Table Nat) : Prop where
  ordered : met.Pairwise fun nearer farther => nearer.2 ≤ farther.2
  within : ∀ entry ∈ met, entry.2 ≤ depth

theorem Ordered.succ (ordered : Ordered depth met) : Ordered (depth + 1) met where
  ordered := ordered.ordered
  within := fun entry member => Nat.le_succ_of_le (ordered.within entry member)

theorem Ordered.add (ordered : Ordered depth met) (id : String) : Ordered depth (met ++ [(id, depth)]) := by
  constructor
  case ordered =>
    apply List.pairwise_append.mpr
    refine ⟨ordered.ordered, List.pairwise_singleton _ _, ?_⟩
    intro nearer member farther last
    rw [List.mem_singleton.mp last]
    exact ordered.within nearer member
  case within =>
    intro entry member
    rcases List.mem_append.mp member with before | last
    · exact ordered.within entry before
    · rw [List.mem_singleton.mp last]

theorem visit_ordered (frontier : List String) : ∀ {met : Table Nat} {next : List String}, Ordered depth met →
    Ordered depth (graph.visit depth frontier met next).1 := by
  induction frontier with
  | nil => exact fun ordered => ordered
  | cons first rest ih =>
      intro met next ordered
      rw [visit]
      split
      · exact ih ordered
      · exact ih (ordered.add first)

theorem search_ordered (rounds : Nat) : ∀ {depth : Nat} {frontier : List String} {met : Table Nat},
    Ordered depth met →
      (graph.search depth rounds frontier met).Pairwise fun nearer farther => nearer.2 ≤ farther.2 := by
  induction rounds with
  | zero => exact fun ordered => ordered.ordered
  | succ rounds ih =>
      intro depth frontier met ordered
      rw [search]
      split
      · exact ordered.ordered
      · exact ih (visit_ordered frontier ordered).succ

end order

section ending

variable {graph : CallGraph} {depth bound : Nat} {frontier : List String} {met : Table Nat} {start : String}

theorem search_nil (graph : CallGraph) (depth rounds : Nat) (met : Table Nat) :
    graph.search depth rounds [] met = met := by
  cases rounds with
  | zero => rfl
  | succ rounds => rfl

theorem visit_of_met {next : List String} (known : ∀ id ∈ frontier, id ∈ met.keys) :
    graph.visit depth frontier met next = (met, next) := by
  induction frontier with
  | nil => rfl
  | cons first rest ih =>
      rw [visit, if_pos (Table.has_iff.mpr (known first List.mem_cons_self))]
      exact ih fun id member => known id (List.mem_cons_of_mem _ member)

theorem Searched.spent (searched : Searched graph start depth frontier met)
    (near : ∀ id count, Distance graph.edges start id count → count < depth) (rounds : Nat) :
    graph.search depth rounds frontier met = met := by
  have known : ∀ id ∈ frontier, id ∈ met.keys := by
    intro id member
    by_contra fresh
    have distance := (searched.fresh_iff id).mp ⟨member, fresh⟩
    exact Nat.lt_irrefl depth (near id depth distance)
  cases rounds with
  | zero => rfl
  | succ rounds =>
      rw [search, visit_of_met known]
      split
      · rfl
      · exact search_nil graph (depth + 1) rounds met

theorem Searched.steady (coherent : graph.Coherent)
    (near : ∀ id count, Distance graph.edges start id count → count < bound) (more rounds : Nat) :
    ∀ {depth : Nat} {frontier : List String} {met : Table Nat}, Searched graph start depth frontier met →
      bound ≤ depth + rounds →
        graph.search depth (rounds + more) frontier met = graph.search depth rounds frontier met := by
  -- Rounds beyond the greatest distance find nothing more.
  induction rounds with
  | zero =>
      intro depth frontier met searched enough
      apply searched.spent
      intro id count distance
      exact Nat.lt_of_lt_of_le (near id count distance) enough
  | succ rounds ih =>
      intro depth frontier met searched enough
      rw [Nat.add_right_comm, search, search]
      split
      · rfl
      · apply ih (searched.round coherent)
        omega

theorem reachable_min (coherent : graph.Coherent) (start : String) (limit : Int) :
    graph.reachable start limit = graph.reachable start (min limit graph.ids.length) := by
  rw [reachable, reachable]
  split
  · rename_i known
    have held : start ∈ graph.ids := Table.has_iff.mp known
    have near : ∀ id count, Distance graph.edges start id count → count < graph.ids.length :=
      fun _ _ distance => distance.lt_length coherent held
    apply run_min (fun rounds => graph.search 0 rounds [start] [])
    intro more
    apply Searched.steady coherent near more _ (searched_start graph start)
    omega
  · rfl

end ending

/-- Whatever was added to a graph in whatever order, a search lists each routine within the limit once, with the
number of calls of a shortest way to it, nearer ones first. It finds nothing from an unknown routine or below a
limit of no calls, and a limit beyond the number of routines adds nothing. -/
theorem ofAdditions_reachable (additions : List Addition) (start : String) (limit : Int) :
    let graph := ofAdditions additions
    let found := graph.reachable start limit
    found.keys.Nodup ∧
      (∀ id count, (id, count) ∈ found ↔
        start ∈ graph.ids ∧ (count : Int) ≤ limit ∧ Distance graph.edges start id count) ∧
      (found.Pairwise fun nearer farther => nearer.2 ≤ farther.2) ∧
      (found = [] ↔ start ∉ graph.ids ∨ limit < 0) ∧
      found = graph.reachable start (min limit graph.ids.length) := by
  intro graph found
  have coherent : graph.Coherent := ofAdditions_coherent additions
  have listed := mem_reachable coherent start limit
  refine ⟨reachable_nodup coherent start limit, listed, ?_, ?_, reachable_min coherent start limit⟩
  · have empty : Ordered 0 [] := ⟨List.Pairwise.nil, nofun⟩
    show (graph.reachable start limit).Pairwise _
    rw [reachable]
    split
    · exact search_ordered _ empty
    · exact List.Pairwise.nil
  · -- The routine itself is at no distance, so it is missing only where everything is.
    have itself : Distance graph.edges start start 0 := ⟨.here, fun _ _ => Nat.zero_le _⟩
    constructor
    · intro none
      by_contra otherwise
      rw [not_or, not_not, Int.not_lt] at otherwise
      have member : (start, 0) ∈ found := (listed start 0).mpr ⟨otherwise.1, otherwise.2, itself⟩
      rw [none] at member
      cases member
    · intro nowhere
      rw [List.eq_nil_iff_forall_not_mem]
      intro entry member
      obtain ⟨held, within, -⟩ := (listed entry.1 entry.2).mp member
      rcases nowhere with unknown | negative
      · exact unknown held
      · omega

example :
    let plain (id : String) : Routine := { id, name := id, file := "f", line := 1 }
    let graph := ofAdditions [.node (plain "a"), .node (plain "b"), .node (plain "c"), .edge ⟨"a", "b", 1⟩,
      .edge ⟨"b", "c", 2⟩, .edge ⟨"c", "a", 3⟩, .edge ⟨"a", "c", 4⟩]
    graph.reachable "a" 9 = [("a", 0), ("b", 1), ("c", 1)] ∧ graph.reachable "b" 1 = [("b", 0), ("c", 1)] := by
  decide

end FlowAtlas.CallGraph
