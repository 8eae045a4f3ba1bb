import FlowAtlas.CallGraph.Reach
import FlowAtlas.Proofs.CallGraph.Coherence
import Mathlib.Order.Lattice.Nat

/-! Ways from one routine to another, call by call. A search lists the routines within some distance, each with the
length of the shortest way to it. -/

namespace FlowAtlas.CallGraph

def Calls (edges : List CallEdge) (caller callee : String) : Prop :=
  ∃ edge ∈ edges, edge.callerId = caller ∧ edge.calleeId = callee

inductive Way (edges : List CallEdge) (start : String) : Nat → String → Prop
  | here : Way edges start 0 start
  | call {count : Nat} {caller callee : String} (way : Way edges start count caller)
      (calls : Calls edges caller callee) : Way edges start (count + 1) callee

/-- The number of calls of a shortest way. -/
def Distance (edges : List CallEdge) (start id : String) (count : Nat) : Prop :=
  IsLeast {count | Way edges start count id} count

section distance

variable {edges : List CallEdge} {start id : String} {count other : Nat}

theorem Way.distance (way : Way edges start count id) : ∃ least ≤ count, Distance edges start id least := by
  have least := isLeast_csInf (⟨count, way⟩ : {count | Way edges start count id}.Nonempty)
  exact ⟨_, least.2 way, least⟩

theorem Distance.unique (first : Distance edges start id count) (second : Distance edges start id other) :
    count = other := IsLeast.unique first second

theorem Distance.eq_start (distance : Distance edges start id 0) : id = start := by
  obtain ⟨way, -⟩ := distance
  cases way
  rfl

theorem Distance.before (distance : Distance edges start id (count + 1)) :
    ∃ caller, Distance edges start caller count ∧ Calls edges caller id := by
  obtain ⟨way, least⟩ := distance
  cases way with
  | @call _ caller _ way calls =>
      refine ⟨caller, ⟨way, ?_⟩, calls⟩
      intro shorter leads
      have bound : count + 1 ≤ shorter + 1 := least (leads.call calls)
      omega

theorem Distance.below (distance : Distance edges start id count) : ∀ {less : Nat}, less ≤ count →
    ∃ nearer, Distance edges start nearer less := by
  induction count generalizing id with
  | zero =>
      intro less bound
      obtain rfl := Nat.le_zero.mp bound
      exact ⟨id, distance⟩
  | succ count ih =>
      intro less bound
      rcases Nat.le_succ_iff.mp bound with within | rfl
      · obtain ⟨caller, nearer, -⟩ := distance.before
        exact ih nearer within
      · exact ⟨id, distance⟩

end distance

section search

variable {graph : CallGraph}

structure Visited (graph : CallGraph) (depth : Nat) (frontier : List String) (met : Table Nat) (next : List String)
    (after : Table Nat × List String) : Prop where
  distinct : met.keys.Nodup → after.1.keys.Nodup
  mem : ∀ id count, (id, count) ∈ after.1 ↔ (id, count) ∈ met ∨ count = depth ∧ id ∈ frontier ∧ id ∉ met.keys
  kept : next ⊆ after.2
  called : ∀ callee ∈ after.2, callee ∈ next ∨ ∃ id ∈ frontier, callee ∈ graph.calleesOf id
  followed : ∀ id ∈ frontier, id ∉ met.keys → ∀ callee ∈ graph.calleesOf id,
    callee ∈ after.1.keys ∨ callee ∈ after.2

section visited

variable {depth : Nat} {first : String} {rest : List String} {met : Table Nat} {next : List String}
  {after : Table Nat × List String}

theorem visited_nil (graph : CallGraph) (depth : Nat) (met : Table Nat) (next : List String) :
    Visited graph depth [] met next (met, next) where
  distinct := id
  mem := by simp
  kept := List.Subset.refl _
  called := fun _ => Or.inl
  followed := by simp

theorem Visited.pass (held : first ∈ met.keys) (later : Visited graph depth rest met next after) :
    Visited graph depth (first :: rest) met next after where
  distinct := later.distinct
  mem := by
    intro id count
    rw [later.mem, List.mem_cons]
    refine or_congr_right (and_congr_right fun _ => and_congr_left fun fresh => ?_)
    exact ⟨Or.inr, fun either => either.resolve_left fun same => fresh (same ▸ held)⟩
  kept := later.kept
  called := by
    intro callee member
    rcases later.called callee member with noted | ⟨id, among, calls⟩
    · exact Or.inl noted
    · exact Or.inr ⟨id, List.mem_cons_of_mem _ among, calls⟩
  followed := by
    intro id among fresh
    apply later.followed id _ fresh
    exact (List.mem_cons.mp among).resolve_left fun same => fresh (same ▸ held)

theorem Visited.enter (unmet : first ∉ met.keys)
    (later : Visited graph depth rest (met ++ [(first, depth)])
      (next ++ (graph.calleesOf first).filter fun callee => !Table.has (met ++ [(first, depth)]) callee) after) :
    Visited graph depth (first :: rest) met next after := by
  have keys : Table.keys (met ++ [(first, depth)]) = met.keys ++ [first] := Table.keys_append _ _
  constructor
  case distinct =>
    intro distinct
    apply later.distinct
    rw [keys, List.nodup_append]
    refine ⟨distinct, List.nodup_singleton _, ?_⟩
    intro id held other member same
    rw [List.mem_singleton.mp member] at same
    exact unmet (same ▸ held)
  case mem =>
    intro id count
    rw [later.mem, keys, List.mem_append, List.mem_append, List.mem_singleton, List.mem_singleton, List.mem_cons,
      Prod.mk.injEq]
    by_cases same : id = first
    · simp [same, unmet]
    · simp [same]
  case kept => exact List.Subset.trans (List.subset_append_left _ _) later.kept
  case called =>
    intro callee member
    rcases later.called callee member with noted | ⟨id, among, calls⟩
    · rcases List.mem_append.mp noted with noted | fresh
      · exact Or.inl noted
      · exact Or.inr ⟨first, List.mem_cons_self, (List.mem_filter.mp fresh).1⟩
    · exact Or.inr ⟨id, List.mem_cons_of_mem _ among, calls⟩
  case followed =>
    intro id among fresh callee calls
    by_cases same : id = first
    · rw [same] at calls
      by_cases held : callee ∈ Table.keys (met ++ [(first, depth)])
      · obtain ⟨count, member⟩ := Table.mem_keys.mp held
        exact Or.inl (Table.mem_keys.mpr ⟨count, (later.mem callee count).mpr (Or.inl member)⟩)
      · apply Or.inr
        apply later.kept
        apply List.mem_append_right
        rw [List.mem_filter, Bool.not_eq_true', Bool.eq_false_iff, ne_eq, Table.has_iff]
        exact ⟨calls, held⟩
    · apply later.followed id ((List.mem_cons.mp among).resolve_left same) _ callee calls
      rw [keys, List.mem_append, List.mem_singleton]
      exact not_or.mpr ⟨fresh, same⟩

end visited

theorem visit_visited (graph : CallGraph) (depth : Nat) (frontier : List String) : ∀ (met : Table Nat)
    (next : List String), Visited graph depth frontier met next (graph.visit depth frontier met next) := by
  induction frontier with
  | nil => exact visited_nil graph depth
  | cons first rest ih =>
      intro met next
      rw [visit]
      split
      · rename_i held
        exact (ih met next).pass (Table.has_iff.mp held)
      · rename_i unmet
        exact (ih _ _).enter (mt Table.has_iff.mpr unmet)

/-- Before a round all that is nearer is met, and the frontier holds everything at the depth of the round. -/
structure Searched (graph : CallGraph) (start : String) (depth : Nat) (frontier : List String) (met : Table Nat) :
    Prop where
  distinct : met.keys.Nodup
  met : ∀ id count, (id, count) ∈ met ↔ count < depth ∧ Distance graph.edges start id count
  way : ∀ id ∈ frontier, Way graph.edges start depth id
  reached : ∀ id, Distance graph.edges start id depth → id ∈ frontier

theorem searched_start (graph : CallGraph) (start : String) : Searched graph start 0 [start] [] := by
  constructor
  case distinct => exact List.nodup_nil
  case met => simp
  case way =>
    intro id member
    rw [List.mem_singleton.mp member]
    exact .here
  case reached =>
    intro id distance
    exact List.mem_singleton.mpr distance.eq_start

variable {start : String} {depth : Nat} {frontier : List String} {met : Table Nat}

theorem Searched.fresh_iff (searched : Searched graph start depth frontier met) (id : String) :
    id ∈ frontier ∧ id ∉ met.keys ↔ Distance graph.edges start id depth := by
  constructor
  · rintro ⟨member, fresh⟩
    obtain ⟨least, bound, distance⟩ := (searched.way id member).distance
    rcases Nat.lt_or_eq_of_le bound with nearer | rfl
    · exact absurd (Table.mem_keys.mpr ⟨least, (searched.met id least).mpr ⟨nearer, distance⟩⟩) fresh
    · exact distance
  · intro distance
    refine ⟨searched.reached id distance, fun held => ?_⟩
    obtain ⟨count, member⟩ := Table.mem_keys.mp held
    obtain ⟨nearer, other⟩ := (searched.met id count).mp member
    exact absurd (other.unique distance) (Nat.ne_of_lt nearer)

theorem Searched.round (coherent : graph.Coherent) (searched : Searched graph start depth frontier met) :
    let after := graph.visit depth frontier met []
    Searched graph start (depth + 1) after.2 after.1 := by
  intro after
  have visited := visit_visited graph depth frontier met []
  have within : ∀ id count, (id, count) ∈ after.1 ↔ count < depth + 1 ∧ Distance graph.edges start id count := by
    intro id count
    rw [visited.mem, searched.met, searched.fresh_iff, Nat.lt_succ_iff_lt_or_eq, or_and_right]
    exact or_congr_right (and_congr_right fun same => same ▸ Iff.rfl)
  constructor
  case distinct => exact visited.distinct searched.distinct
  case met => exact within
  case way =>
    intro callee member
    rcases visited.called callee member with noted | ⟨id, among, calls⟩
    · cases noted
    · exact (searched.way id among).call ((mem_calleesOf coherent id callee).mp calls)
  case reached =>
    intro id distance
    obtain ⟨caller, nearer, calls⟩ := distance.before
    obtain ⟨among, fresh⟩ := (searched.fresh_iff caller).mpr nearer
    rcases visited.followed caller among fresh id ((mem_calleesOf coherent caller id).mpr calls) with held | noted
    · obtain ⟨count, member⟩ := Table.mem_keys.mp held
      obtain ⟨bound, other⟩ := (within id count).mp member
      exact absurd (other.unique distance) (Nat.ne_of_lt bound)
    · exact noted

/-- So many rounds meet what is at most so much farther away, and nothing twice. -/
theorem search_spec (coherent : graph.Coherent) (rounds : Nat) : ∀ {depth : Nat} {frontier : List String}
    {met : Table Nat}, Searched graph start depth frontier met →
      (graph.search depth rounds frontier met).keys.Nodup ∧
      ∀ id count, (id, count) ∈ graph.search depth rounds frontier met ↔
        count < depth + rounds ∧ Distance graph.edges start id count := by
  induction rounds with
  | zero => exact fun searched => ⟨searched.distinct, searched.met⟩
  | succ rounds ih =>
      intro depth frontier met searched
      rw [search]
      split
      · rename_i empty
        refine ⟨searched.distinct, fun id count => ?_⟩
        rw [searched.met]
        refine and_congr_left fun distance => ⟨fun nearer => by omega, fun _ => ?_⟩
        -- With an empty frontier nothing is at the depth, so nothing lies behind it either.
        by_contra beyond
        obtain ⟨other, there⟩ := distance.below (Nat.le_of_not_lt beyond)
        have member := searched.reached other there
        rw [List.isEmpty_iff.mp empty] at member
        cases member
      · have spec := ih (searched.round coherent)
        rwa [Nat.add_right_comm] at spec

end search

variable {graph : CallGraph} (coherent : graph.Coherent)

include coherent

theorem mem_reachable (start : String) (limit : Int) (id : String) (count : Nat) :
    (id, count) ∈ graph.reachable start limit ↔
      start ∈ graph.ids ∧ (count : Int) ≤ limit ∧ Distance graph.edges start id count := by
  rw [reachable]
  by_cases known : graph.nodes.has start = true
  · have spec := (search_spec coherent (limit + 1).toNat (searched_start graph start)).2 id count
    have bound : count < 0 + (limit + 1).toNat ↔ (count : Int) ≤ limit := by omega
    have held : start ∈ graph.ids := Table.has_iff.mp known
    rw [if_pos known, spec, bound, and_iff_right held]
  · have unheld : start ∉ graph.ids := mt Table.has_iff.mpr known
    simp [known, unheld]

theorem reachable_nodup (start : String) (limit : Int) : (graph.reachable start limit).keys.Nodup := by
  rw [reachable]
  split
  · exact (search_spec coherent _ (searched_start graph start)).1
  · exact List.nodup_nil

theorem Way.known {start id : String} {count : Nat} (way : Way graph.edges start count id)
    (held : start ∈ graph.ids) : id ∈ graph.ids := by
  cases way with
  | here => exact held
  | call _ calls =>
      obtain ⟨edge, member, -, rfl⟩ := calls
      exact (coherent.known edge member).2

end FlowAtlas.CallGraph
