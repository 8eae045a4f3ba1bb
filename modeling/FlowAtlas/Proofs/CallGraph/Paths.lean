import FlowAtlas.Proofs.CallGraph.Distances

namespace FlowAtlas.CallGraph

/-- Calls one after the other from a routine on, with no routine twice; the last one is first. -/
inductive Trail (edges : List CallEdge) (start : String) : List String → Prop
  | here : Trail edges start [start]
  | call {caller callee : String} {path : List String} (trail : Trail edges start (caller :: path))
      (calls : Calls edges caller callee) (fresh : callee ∉ caller :: path) :
      Trail edges start (callee :: caller :: path)

section trail

variable {edges : List CallEdge} {start id : String} {path : List String}

theorem Trail.nodup (trail : Trail edges start path) : path.Nodup := by
  induction trail with
  | here => exact List.nodup_singleton _
  | call _ _ fresh ih => exact List.nodup_cons.mpr ⟨fresh, ih⟩

theorem Trail.begins (trail : Trail edges start path) : ∃ front, path = front ++ [start] := by
  induction trail with
  | here => exact ⟨[], rfl⟩
  | @call _ callee _ _ _ _ ih =>
      obtain ⟨front, same⟩ := ih
      exact ⟨callee :: front, by rw [same, List.cons_append]⟩

theorem Trail.before {caller : String} (trail : Trail edges start (id :: caller :: path)) :
    Trail edges start (caller :: path) := by
  cases trail with
  | call before _ _ => exact before

theorem Trail.behind {front : List String} (trail : Trail edges start (front ++ id :: path)) :
    Trail edges start (id :: path) := by
  induction front with
  | nil => exact trail
  | cons last front ih =>
      apply ih
      cases front with
      | nil => exact trail.before
      | cons caller front => exact trail.before

theorem Trail.way (trail : Trail edges start path) : ∀ {rest : List String}, path = id :: rest →
    Way edges start rest.length id := by
  induction trail generalizing id with
  | here =>
      rintro rest ⟨⟩
      exact .here
  | call _ calls _ ih =>
      rintro rest ⟨⟩
      exact (ih rfl).call calls

theorem Way.trail {count : Nat} (way : Way edges start count id) :
    ∃ rest, rest.length ≤ count ∧ Trail edges start (id :: rest) := by
  -- Of a way that comes to a routine twice, what lies between can be left out.
  induction way with
  | here => exact ⟨[], Nat.le_refl _, .here⟩
  | @call count caller callee _ calls ih =>
      obtain ⟨rest, bound, trail⟩ := ih
      by_cases held : callee ∈ caller :: rest
      · obtain ⟨front, path, same⟩ := List.append_of_mem held
        have cut : path.length < (caller :: rest).length := by
          rw [same, List.length_append, List.length_cons]
          omega
        rw [same] at trail
        refine ⟨path, ?_, trail.behind⟩
        rw [List.length_cons] at cut
        omega
      · exact ⟨caller :: rest, Nat.succ_le_succ bound, trail.call calls held⟩

end trail

section extension

variable {graph : CallGraph} {start stop : String} {path longer : List String} {paths : List (List String)}
  {rounds : Nat}

theorem mem_extend (coherent : graph.Coherent) (trail : Trail graph.edges start path) :
    longer ∈ graph.extend path ↔ Trail graph.edges start longer ∧ ∃ callee, longer = callee :: path := by
  cases path with
  | nil => cases trail
  | cons last path =>
      simp only [extend, List.mem_map, List.mem_filter, Bool.not_eq_true', List.contains_eq_mem,
        decide_eq_false_iff_not, mem_calleesOf coherent]
      constructor
      · rintro ⟨callee, ⟨calls, fresh⟩, rfl⟩
        exact ⟨trail.call calls fresh, callee, rfl⟩
      · rintro ⟨further, callee, rfl⟩
        cases further with
        | call _ calls fresh => exact ⟨callee, ⟨calls, fresh⟩, rfl⟩

theorem pathsFrom_nil (graph : CallGraph) (stop : String) (rounds : Nat) : graph.pathsFrom stop rounds [] = [] := by
  cases rounds with
  | zero => rfl
  | succ rounds => rfl

theorem pathsFrom_succ (graph : CallGraph) (stop : String) (rounds : Nat) (paths : List (List String)) :
    graph.pathsFrom stop (rounds + 1) paths =
      (paths.filter fun path => path.head? == some stop) ++
        graph.pathsFrom stop rounds ((paths.filter fun path => !(path.head? == some stop)).flatMap graph.extend) := by
  cases paths with
  | nil => exact (pathsFrom_nil graph stop rounds).symm
  | cons path paths =>
      rw [pathsFrom, List.partition_eq_filter_filter]
      rfl

theorem pathsFrom_sound (coherent : graph.Coherent) (found : longer ∈ graph.pathsFrom stop rounds paths)
    (trails : ∀ path ∈ paths, Trail graph.edges start path) :
    Trail graph.edges start longer ∧ longer.head? = some stop ∧
      ∃ front, ∃ path ∈ paths, longer = front ++ path ∧ front.length < rounds := by
  induction rounds generalizing paths with
  | zero => cases found
  | succ rounds ih =>
      rw [pathsFrom_succ, List.mem_append] at found
      rcases found with done | further
      · obtain ⟨member, ends⟩ := List.mem_filter.mp done
        exact ⟨trails longer member, beq_iff_eq.mp ends, [], longer, member, rfl, Nat.succ_pos _⟩
      · have extended : ∀ path ∈ (paths.filter fun path => !(path.head? == some stop)).flatMap graph.extend,
            Trail graph.edges start path ∧ ∃ callee, ∃ base ∈ paths, path = callee :: base := by
          intro path member
          obtain ⟨base, going, step⟩ := List.mem_flatMap.mp member
          have among : base ∈ paths := List.mem_of_mem_filter going
          obtain ⟨trail, callee, same⟩ := (mem_extend coherent (trails base among)).mp step
          exact ⟨trail, callee, base, among, same⟩
        obtain ⟨trail, ends, front, path, member, rfl, short⟩ := ih further fun path member => (extended path member).1
        obtain ⟨-, callee, base, among, rfl⟩ := extended path member
        refine ⟨trail, ends, front ++ [callee], base, among, by simp, ?_⟩
        rw [List.length_append, List.length_singleton]
        exact Nat.succ_lt_succ short

theorem pathsFrom_complete (coherent : graph.Coherent) {front : List String}
    (trail : Trail graph.edges start (front ++ path)) (ends : (front ++ path).head? = some stop)
    (member : path ∈ paths) (short : front.length < rounds)
    (trails : ∀ path ∈ paths, Trail graph.edges start path) : front ++ path ∈ graph.pathsFrom stop rounds paths := by
  induction rounds generalizing front path paths with
  | zero => cases short
  | succ rounds ih =>
      rw [pathsFrom_succ, List.mem_append]
      rcases List.eq_nil_or_concat front with rfl | ⟨front, callee, rfl⟩
      · exact Or.inl (List.mem_filter.mpr ⟨member, beq_iff_eq.mpr ends⟩)
      · apply Or.inr
        rw [List.concat_eq_append] at trail ends short ⊢
        -- The end stands in front of the given path, so it cannot be on it as well.
        have first : stop ∈ front ++ [callee] := by
          rw [List.head?_append_of_ne_nil _ (by simp)] at ends
          exact List.mem_of_mem_head? ends
        have going : path.head? ≠ some stop := fun same =>
          List.disjoint_of_nodup_append trail.nodup first (List.mem_of_mem_head? same)
        rw [List.append_assoc, List.singleton_append] at trail ends ⊢
        rw [List.length_append, List.length_singleton] at short
        have extended : callee :: path ∈
            (paths.filter fun path => !(path.head? == some stop)).flatMap graph.extend := by
          refine List.mem_flatMap.mpr ⟨path, List.mem_filter.mpr ⟨member, by simpa using going⟩, ?_⟩
          exact (mem_extend coherent (trails path member)).mpr ⟨trail.behind, callee, rfl⟩
        apply ih trail ends extended (Nat.lt_of_succ_lt_succ short)
        intro path among
        obtain ⟨base, kept, step⟩ := List.mem_flatMap.mp among
        exact ((mem_extend coherent (trails base (List.mem_of_mem_filter kept))).mp step).1

end extension

section shortest

variable {graph : CallGraph} (coherent : graph.Coherent) (start stop : String) (limit : Int)

include coherent

theorem mem_paths (path : List String) :
    path ∈ graph.paths start stop limit ↔
      (start ∈ graph.ids ∧ stop ∈ graph.ids) ∧ Trail graph.edges start path.reverse ∧
        path.reverse.head? = some stop ∧ (path.length : Int) ≤ limit + 1 := by
  have known : (graph.nodes.has start && graph.nodes.has stop) = true ↔ start ∈ graph.ids ∧ stop ∈ graph.ids := by
    rw [Bool.and_eq_true, Table.has_iff, Table.has_iff]
    rfl
  rw [paths, ← known]
  split
  · rename_i held
    have trails : ∀ path ∈ [[start]], Trail graph.edges start path := by
      intro path member
      rw [List.mem_singleton.mp member]
      exact .here
    rw [and_iff_right held, List.mem_map]
    constructor
    · rintro ⟨longer, found, rfl⟩
      obtain ⟨trail, ends, front, path, member, rfl, short⟩ := pathsFrom_sound coherent found trails
      rw [List.mem_singleton.mp member] at trail ends ⊢
      rw [List.reverse_reverse, List.length_reverse, List.length_append, List.length_singleton]
      exact ⟨trail, ends, by omega⟩
    · rintro ⟨trail, ends, short⟩
      obtain ⟨front, same⟩ := trail.begins
      have length : path.length = front.length + 1 := by
        rw [← List.length_reverse, same, List.length_append, List.length_singleton]
      refine ⟨path.reverse, ?_, List.reverse_reverse path⟩
      rw [same] at trail ends ⊢
      exact pathsFrom_complete coherent trail ends (List.mem_singleton.mpr rfl) (by omega) trails
  · rename_i unheld
    simp [unheld]

theorem reachable_of_path {path : List String} (member : path ∈ graph.paths start stop limit) :
    ∃ depth, (stop, depth) ∈ graph.reachable start limit ∧ depth + 1 ≤ path.length := by
  obtain ⟨⟨known, -⟩, trail, ends, bound⟩ := (mem_paths coherent start stop limit path).mp member
  obtain ⟨rest, same⟩ := List.head?_eq_some_iff.mp ends
  have length : path.length = rest.length + 1 := by
    rw [← List.length_reverse, same, List.length_cons]
  obtain ⟨depth, least, distance⟩ := (trail.way same).distance
  refine ⟨depth, (mem_reachable coherent start limit stop depth).mpr ⟨known, by omega, distance⟩, by omega⟩

theorem path_of_reachable {depth : Nat} (member : (stop, depth) ∈ graph.reachable start limit) :
    ∃ path ∈ graph.paths start stop limit, path.length = depth + 1 := by
  obtain ⟨known, bound, distance⟩ := (mem_reachable coherent start limit stop depth).mp member
  obtain ⟨rest, short, trail⟩ := distance.1.trail
  have exactly : rest.length = depth := Nat.le_antisymm short (distance.2 (trail.way rfl))
  have length : (stop :: rest).reverse.length = depth + 1 := by
    rw [List.length_reverse, List.length_cons, exactly]
  have found : (stop :: rest).reverse ∈ graph.paths start stop limit := by
    rw [mem_paths coherent, List.reverse_reverse, length]
    exact ⟨⟨known, distance.1.known coherent known⟩, trail, rfl, by omega⟩
  exact ⟨_, found, length⟩

/-- The shortest paths have as many calls as the search says. -/
theorem paths_isLeast {depth : Nat} (member : (stop, depth) ∈ graph.reachable start limit) :
    IsLeast {count | ∃ path ∈ graph.paths start stop limit, path.length = count + 1} depth := by
  constructor
  · exact path_of_reachable coherent start stop limit member
  · rintro count ⟨path, found, length⟩
    obtain ⟨least, listed, bound⟩ := reachable_of_path coherent start stop limit found
    obtain ⟨-, -, distance⟩ := (mem_reachable coherent start limit stop depth).mp member
    obtain ⟨-, -, other⟩ := (mem_reachable coherent start limit stop least).mp listed
    have same : least = depth := other.unique distance
    omega

end shortest

end FlowAtlas.CallGraph
