import FlowAtlas.CallGraph.Report
import FlowAtlas.Proofs.CallGraph.Paths

namespace FlowAtlas

/-- What a report says of the routines that a symbol means, told by all routines and the edges between them. -/
structure SymbolReport.Tells (report : SymbolReport) (meant : List String) (routines : List Routine)
    (edges : List CallEdge) (limit : Nat) : Prop where
  found : report.found = meant
  callers : report.callers = meant.map fun id => (id, (CallGraph.sources edges id).eraseDups)
  known : ∀ reached ∈ report.reached, reached.routine ∈ routines
  once : (report.reached.map (·.routine.id)).Nodup
  listed : ∀ id, id ∈ report.reached.map (·.routine.id) ↔
    ∃ start ∈ meant, ∃ count ≤ limit, CallGraph.Way edges start count id
  depths : ∀ reached ∈ report.reached,
    IsLeast {count | ∃ start ∈ meant, CallGraph.Distance edges start reached.routine.id count} reached.depth
  edges : report.edges = edges.filter fun edge =>
    edge.callerId ∈ report.reached.map (·.routine.id) ∧ edge.calleeId ∈ report.reached.map (·.routine.id)

/-- One report for each routine, all of which together say what the report on the symbol does. -/
structure SymbolReport.Merges (report : SymbolReport) (singles : List RoutineReport) : Prop where
  found : singles.map (·.id) = report.found
  callers : singles.map (fun single => (single.id, single.callers)) = report.callers
  reached : ∀ routine depth, ⟨routine, depth⟩ ∈ report.reached ↔
    IsLeast {depth | ∃ single ∈ singles, ⟨routine, depth⟩ ∈ single.reached} depth

namespace CallGraph

structure Least (depths : Table Nat) (held : String → Set Nat) : Prop where
  distinct : depths.keys.Nodup
  get?_iff : ∀ id depth, depths.get? id = some depth ↔ IsLeast (held id) depth

section least

variable {depths : Table Nat} {held : String → Set Nat}

theorem least_nil : Least [] fun _ => ∅ := by
  constructor
  case distinct => exact List.nodup_nil
  case get?_iff =>
    intro id depth
    constructor
    · intro absent
      cases absent
    · intro least
      exact absurd least.1 (Set.notMem_empty depth)

theorem Least.eq_empty (least : Least depths held) {id : String} (absent : depths.get? id = none) : held id = ∅ := by
  by_contra nonempty
  have there := isLeast_csInf (Set.nonempty_iff_ne_empty.mpr nonempty)
  rw [(least.get?_iff id _).mpr there] at absent
  cases absent

theorem Least.put (least : Least depths held) (id : String) (depth : Nat) :
    Least (depths.put id (min depth ((depths.get? id).getD depth)))
      fun other => if other = id then insert depth (held other) else held other := by
  constructor
  case distinct =>
    rw [Table.keys_put]
    split
    · exact least.distinct
    · rename_i fresh
      rw [← List.concat_eq_append]
      exact least.distinct.concat fresh
  case get?_iff =>
    intro other result
    rw [Table.get?_put]
    split
    · rename_i same
      subst same
      have lesser : IsLeast (insert depth (held other)) (min depth ((depths.get? other).getD depth)) := by
        cases found : depths.get? other with
        | none =>
            rw [least.eq_empty found, Option.getD_none, min_self, insert_empty_eq]
            exact isLeast_singleton
        | some old => exact ((least.get?_iff other old).mp found).insert depth
      exact ⟨fun same => Option.some.inj same ▸ lesser, fun other => congrArg some (lesser.unique other)⟩
    · exact least.get?_iff other result

theorem Least.nearest (more : Table Nat) : ∀ {depths : Table Nat} {held : String → Set Nat}, Least depths held →
    Least (nearest depths more) fun id => held id ∪ {depth | (id, depth) ∈ more} := by
  induction more with
  | nil =>
      intro depths held least
      simpa [CallGraph.nearest] using least
  | cons entry more ih =>
      intro depths held least
      have later := ih (least.put entry.1 entry.2)
      have same : (fun id => (if id = entry.1 then insert entry.2 (held id) else held id) ∪
          {depth | (id, depth) ∈ more}) = fun id => held id ∪ {depth | (id, depth) ∈ entry :: more} := by
        funext id
        ext depth
        by_cases here : id = entry.1
        · simp [here, Prod.ext_iff, or_assoc, or_left_comm]
        · simp [here, Prod.ext_iff]
      rwa [same] at later

theorem reachableFromAny_least (graph : CallGraph) (starts : List String) (limit : Int) :
    Least (graph.reachableFromAny starts limit)
      fun id => {depth | ∃ start ∈ starts, (id, depth) ∈ graph.reachable start limit} := by
  induction starts using List.reverseRecOn with
  | nil => simpa [reachableFromAny] using least_nil
  | append_singleton starts start ih =>
      have next := ih.nearest (graph.reachable start limit)
      have same : graph.reachableFromAny (starts ++ [start]) limit =
          nearest (graph.reachableFromAny starts limit) (graph.reachable start limit) := by
        rw [reachableFromAny, List.foldl_append]
        rfl
      rw [same]
      simpa [Set.ofPred_or, or_and_right, exists_or] using next

end least

section merged

variable {graph : CallGraph} (coherent : graph.Coherent) {starts : List String} (within : starts ⊆ graph.ids)
  (limit : Nat)

include coherent within

theorem mem_reachableFromAny (id : String) (depth : Nat) :
    (id, depth) ∈ graph.reachableFromAny starts limit ↔
      depth ≤ limit ∧ IsLeast {count | ∃ start ∈ starts, Distance graph.edges start id count} depth := by
  have least := reachableFromAny_least graph starts limit
  rw [← Table.get?_eq_some_iff least.distinct, least.get?_iff]
  have reached : ∀ start ∈ starts, ∀ count, (id, count) ∈ graph.reachable start limit ↔
      count ≤ limit ∧ Distance graph.edges start id count := by
    intro start member count
    rw [mem_reachable coherent, and_iff_right (within member), Int.ofNat_le]
  constructor
  · rintro ⟨⟨start, member, listed⟩, lower⟩
    obtain ⟨bound, distance⟩ := (reached start member depth).mp listed
    refine ⟨bound, ⟨start, member, distance⟩, ?_⟩
    rintro count ⟨other, among, farther⟩
    by_cases near : count ≤ limit
    · exact lower ⟨other, among, (reached other among count).mpr ⟨near, farther⟩⟩
    · omega
  · rintro ⟨bound, ⟨start, member, distance⟩, lower⟩
    refine ⟨⟨start, member, (reached start member depth).mpr ⟨bound, distance⟩⟩, ?_⟩
    rintro count ⟨other, among, listed⟩
    exact lower ⟨other, among, ((reached other among count).mp listed).2⟩

theorem mem_keys_reachableFromAny (id : String) :
    id ∈ (graph.reachableFromAny starts limit).keys ↔
      ∃ start ∈ starts, ∃ count ≤ limit, Way graph.edges start count id := by
  rw [Table.mem_keys]
  constructor
  · rintro ⟨depth, member⟩
    obtain ⟨bound, ⟨start, among, distance⟩, -⟩ := (mem_reachableFromAny coherent within limit id depth).mp member
    exact ⟨start, among, depth, bound, distance.1⟩
  · rintro ⟨start, among, count, bound, way⟩
    have nonempty : {count | ∃ start ∈ starts, Distance graph.edges start id count}.Nonempty := by
      obtain ⟨least, -, distance⟩ := way.distance
      exact ⟨least, start, among, distance⟩
    have least := isLeast_csInf nonempty
    refine ⟨_, (mem_reachableFromAny coherent within limit id _).mpr ⟨?_, least⟩⟩
    obtain ⟨shorter, nearer, distance⟩ := way.distance
    exact (least.2 ⟨start, among, distance⟩).trans (nearer.trans bound)

end merged

structure Filed (graph : CallGraph) : Prop where
  distinct : graph.ids.Nodup
  own : ∀ entry ∈ graph.nodes, entry.2.id = entry.1

section filed

variable {graph : CallGraph} (filed : graph.Filed)

include filed

theorem get?_nodes (id : String) (routine : Routine) :
    graph.nodes.get? id = some routine ↔ routine ∈ graph.routines ∧ routine.id = id := by
  rw [Table.get?_eq_some_iff filed.distinct, routines, List.mem_map]
  constructor
  · intro member
    exact ⟨⟨(id, routine), member, rfl⟩, filed.own _ member⟩
  · rintro ⟨⟨entry, member, rfl⟩, same⟩
    rw [← same, filed.own entry member]
    exact member

theorem mem_reachedOf (depths : Table Nat) (routine : Routine) (depth : Nat) :
    ⟨routine, depth⟩ ∈ graph.reachedOf depths ↔ routine ∈ graph.routines ∧ (routine.id, depth) ∈ depths := by
  simp only [reachedOf, List.mem_filterMap, Option.map_eq_some_iff, get?_nodes filed, Reached.mk.injEq]
  constructor
  · rintro ⟨⟨id, depth⟩, member, routine, ⟨known, rfl⟩, rfl, rfl⟩
    exact ⟨known, member⟩
  · rintro ⟨known, member⟩
    exact ⟨_, member, routine, ⟨known, rfl⟩, rfl, rfl⟩

theorem reachedOf_ids (depths : Table Nat) (known : depths.keys ⊆ graph.ids) :
    (graph.reachedOf depths).map (·.routine.id) = depths.keys := by
  induction depths with
  | nil => rfl
  | cons entry depths ih =>
      rw [Table.keys_cons, List.cons_subset] at known
      obtain ⟨routine, held⟩ := Option.ne_none_iff_exists'.mp (mt Table.get?_eq_none_iff.mp (not_not.mpr known.1))
      have same : routine.id = entry.1 := ((get?_nodes filed entry.1 routine).mp held).2
      rw [reachedOf] at ih ⊢
      rw [List.filterMap_cons, held, Option.map_some, List.map_cons, ih known.2, Table.keys_cons, same]

end filed

section reports

variable {graph : CallGraph} (coherent : graph.Coherent) (filed : graph.Filed) (symbol : String) (limit : Nat)

theorem find_subset (graph : CallGraph) (symbol : String) : graph.find symbol ⊆ graph.ids := by
  intro id member
  rw [find] at member
  split at member
  · rename_i known
    rw [List.mem_singleton.mp member]
    exact Table.has_iff.mp known
  · obtain ⟨entry, kept, rfl⟩ := List.mem_map.mp member
    exact List.mem_map_of_mem (List.mem_of_mem_filter kept)

theorem find_of_mem {graph : CallGraph} {id : String} (known : id ∈ graph.ids) : graph.find id = [id] :=
  if_pos (Table.has_iff.mpr known)

theorem report?_eq (graph : CallGraph) (symbol : String) (limit : Int) (known : graph.find symbol ≠ []) :
    graph.report? symbol limit =
      let depths := graph.reachableFromAny (graph.find symbol) limit
      some ⟨symbol, graph.find symbol, graph.callersOfEach (graph.find symbol), graph.reachedOf depths,
        graph.edgesWithin depths⟩ := by
  rw [report?]
  split
  · contradiction
  · rfl

include coherent filed

theorem report?_tells (known : graph.find symbol ≠ []) :
    ∃ report, graph.report? symbol limit = some report ∧
      report.Tells (graph.find symbol) graph.routines graph.edges limit := by
  refine ⟨_, report?_eq graph symbol limit known, ?_⟩
  have least := reachableFromAny_least graph (graph.find symbol) limit
  have listed := mem_keys_reachableFromAny coherent (find_subset graph symbol) limit
  have ids := reachedOf_ids filed (graph.reachableFromAny (graph.find symbol) limit) (by
    intro id member
    obtain ⟨start, among, count, -, way⟩ := (listed id).mp member
    exact way.known coherent (find_subset graph symbol among))
  constructor
  case found => rfl
  case callers =>
    apply List.map_congr_left
    intro id _
    rw [callersOf, coherent.callers.2 id]
  case known =>
    intro reached member
    exact ((mem_reachedOf filed _ reached.routine reached.depth).mp member).1
  case once =>
    rw [ids]
    exact least.distinct
  case listed => rwa [ids]
  case depths =>
    intro reached member
    have held := ((mem_reachedOf filed _ reached.routine reached.depth).mp member).2
    exact ((mem_reachableFromAny coherent (find_subset graph symbol) limit _ _).mp held).2
  case edges =>
    rw [ids]
    apply List.filter_congr
    intro edge _
    rw [Bool.eq_iff_iff, Bool.and_eq_true, Table.has_iff, Table.has_iff, decide_eq_true_iff]

omit coherent in
theorem report?_merges {report : SymbolReport} (reported : graph.report? symbol limit = some report) :
    report.Merges ((graph.find symbol).map (graph.routineReport limit)) := by
  have known : graph.find symbol ≠ [] := by
    intro empty
    rw [report?, empty] at reported
    cases reported
  rw [report?_eq graph symbol limit known] at reported
  rw [← Option.some.inj reported]
  have least := reachableFromAny_least graph (graph.find symbol) limit
  constructor
  case found =>
    rw [List.map_map]
    exact List.map_id _
  case callers => rw [List.map_map, callersOfEach]; rfl
  case reached =>
    intro routine depth
    rw [mem_reachedOf filed, ← Table.get?_eq_some_iff least.distinct, least.get?_iff]
    simp only [List.mem_map, exists_exists_and_eq_and, routineReport, mem_reachedOf filed]
    by_cases known : routine ∈ graph.routines
    · simp only [known, true_and]
    · simp [known, IsLeast]

end reports

end CallGraph

namespace SymbolReport.Tells

variable {report : SymbolReport} {meant : List String} {routines : List Routine} {edges : List CallEdge} {limit : Nat}

theorem depth_iff (tells : report.Tells meant routines edges limit) (id : String) (depth : Nat) :
    (∃ met ∈ report.reached, met.routine.id = id ∧ met.depth = depth) ↔
      depth ≤ limit ∧ IsLeast {count | ∃ start ∈ meant, CallGraph.Distance edges start id count} depth := by
  constructor
  · rintro ⟨met, member, rfl, rfl⟩
    have least := tells.depths met member
    obtain ⟨start, among, count, bound, way⟩ := (tells.listed _).mp (List.mem_map_of_mem member)
    obtain ⟨shortest, shorter, distance⟩ := way.distance
    exact ⟨(least.2 ⟨start, among, distance⟩).trans (shorter.trans bound), least⟩
  · rintro ⟨bound, least⟩
    obtain ⟨start, among, distance⟩ := least.1
    obtain ⟨met, member, rfl⟩ := List.mem_map.mp ((tells.listed id).mpr ⟨start, among, depth, bound, distance.1⟩)
    exact ⟨met, member, rfl, (tells.depths met member).unique least⟩

theorem depth_iff_reachable {graph : CallGraph} (coherent : graph.Coherent) {start : String}
    (known : start ∈ graph.ids) (tells : report.Tells [start] routines graph.edges limit) (id : String) (depth : Nat) :
    (∃ met ∈ report.reached, met.routine.id = id ∧ met.depth = depth) ↔
      (id, depth) ∈ graph.reachable start limit := by
  have single : IsLeast {count | ∃ first ∈ [start], CallGraph.Distance graph.edges first id count} depth ↔
      CallGraph.Distance graph.edges start id depth := by
    simp only [List.mem_singleton, exists_eq_left]
    constructor
    · exact fun least => least.1
    · intro distance
      exact ⟨distance, fun _ other => (distance.unique other).le⟩
  rw [tells.depth_iff, CallGraph.mem_reachable coherent, and_iff_right known, Int.ofNat_le, single]

end SymbolReport.Tells

structure PathReport.Agrees (report : PathReport) (reached : List Reached) (stops : List String) : Prop where
  leads : report.paths ≠ [] ↔ ∃ met ∈ reached, met.routine.id ∈ stops
  shortest : ∀ depth, IsLeast {depth | ∃ met ∈ reached, met.routine.id ∈ stops ∧ met.depth = depth} depth →
    IsLeast {count | ∃ path ∈ report.paths, path.length = count + 1} depth

theorem CallGraph.pathReport_agrees {graph : CallGraph} (coherent : graph.Coherent) {start : String}
    (known : start ∈ graph.ids) {report : SymbolReport} {routines : List Routine} {limit : Nat}
    (tells : report.Tells [start] routines graph.edges limit) (stop : String) :
    (graph.pathReport start stop limit).Agrees report.reached [stop] := by
  have listed := tells.depth_iff_reachable coherent known stop
  constructor
  case leads =>
    simp only [List.mem_singleton]
    constructor
    · intro nonempty
      obtain ⟨path, found⟩ := List.exists_mem_of_ne_nil _ nonempty
      obtain ⟨depth, reached, -⟩ := reachable_of_path coherent start stop limit found
      obtain ⟨met, member, same, -⟩ := (listed depth).mpr reached
      exact ⟨met, member, same⟩
    · rintro ⟨met, member, same⟩
      have reached := (listed met.depth).mp ⟨met, member, same, rfl⟩
      obtain ⟨path, found, -⟩ := path_of_reachable coherent start stop limit reached
      exact List.ne_nil_of_mem found
  case shortest =>
    rintro depth ⟨⟨met, member, same, least⟩, -⟩
    rw [List.mem_singleton] at same
    exact paths_isLeast coherent start stop limit ((listed depth).mp ⟨met, member, same, least⟩)

/-- How paths go with the report on the symbol that they begin at, and with that on its first routine alone. -/
structure PathReport.Follows (paths : PathReport) (report single : SymbolReport) (starts stops : List String) :
    Prop where
  start : starts.head? = some paths.start
  stop : stops.head? = some paths.stop
  alone : paths.Agrees single.reached [paths.stop]
  bounded : ∀ path ∈ paths.paths, ∃ met ∈ report.reached, met.routine.id ∈ stops ∧ met.depth + 1 ≤ path.length
  unambiguous : starts.length = 1 → stops.length = 1 → paths.Agrees report.reached stops

theorem CallGraph.pathReport_follows {graph : CallGraph} (coherent : graph.Coherent) {first last : String}
    {others rest : List String} (known : first ∈ graph.ids) {report single : SymbolReport} {routines : List Routine}
    {limit : Nat} (tells : report.Tells (first :: others) routines graph.edges limit)
    (one : single.Tells [first] routines graph.edges limit) :
    (graph.pathReport first last limit).Follows report single (first :: others) (last :: rest) := by
  -- Other routines that the first symbol means may be nearer, but what the first of them reaches is listed.
  constructor
  case start => rfl
  case stop => rfl
  case alone => exact pathReport_agrees coherent known one last
  case bounded =>
    intro path found
    obtain ⟨depth, reached, bound⟩ := reachable_of_path coherent first last limit found
    obtain ⟨-, near, distance⟩ := (mem_reachable coherent first limit last depth).mp reached
    have among : first ∈ first :: others := List.mem_cons_self
    obtain ⟨met, member, same⟩ := List.mem_map.mp
      ((tells.listed last).mpr ⟨first, among, depth, Int.ofNat_le.mp near, distance.1⟩)
    have least : met.depth ≤ depth := (tells.depths met member).2 ⟨first, among, same ▸ distance⟩
    exact ⟨met, member, List.mem_cons.mpr (Or.inl same), (Nat.succ_le_succ least).trans bound⟩
  case unambiguous =>
    intro starts stops
    obtain rfl := List.length_eq_zero_iff.mp (Nat.succ.inj starts)
    obtain rfl := List.length_eq_zero_iff.mp (Nat.succ.inj stops)
    exact pathReport_agrees coherent known tells last

end FlowAtlas
