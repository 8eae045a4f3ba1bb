import FlowAtlas.Diagram.Synthesis
import Mathlib.Data.List.Nodup
import Mathlib.Data.List.Range

namespace FlowAtlas.Diagram

def countOf : List Char → Nat
  | [] => 0
  | c :: rest => c.toNat - 64 + 26 * countOf rest

theorem toNat_letter (place : Nat) : (Char.ofNat (65 + place % 26)).toNat = 65 + place % 26 := by
  have valid : (65 + place % 26).isValidChar := Or.inl (by omega)
  rw [Char.ofNat, dif_pos valid]
  rfl

theorem countOf_lettersReversed (count : Nat) : countOf (lettersReversed count) = count := by
  induction count using lettersReversed.induct with
  | case1 =>
      rw [lettersReversed]
      rfl
  | case2 count positive ih =>
      rw [lettersReversed, if_neg positive, countOf, ih, toNat_letter]
      omega

theorem nodeId_injective : Function.Injective nodeId := by
  intro first second same
  have letters : lettersReversed (first + 1) = lettersReversed (second + 1) :=
    List.reverse_injective (String.ofList_injective same)
  have counts := congrArg countOf letters
  rw [countOf_lettersReversed, countOf_lettersReversed] at counts
  exact Nat.succ.inj counts

example : [0, 25, 26, 701, 702].map nodeId = ["A", "Z", "AA", "ZZ", "AAA"] := by cbv

def Node.IsAlternative (node : Node) : Prop := node.label = alternativeLabel ∧ node.routineId = none

def edgesTo (diagram : Diagram) (id : String) : List Edge := diagram.edges.filter fun edge => edge.target == id

inductive Route (edges : List Edge) (root : String) : List String → String → Prop where
  | start : Route edges root [root] root
  | step {front : List String} {edge : Edge} (reached : Route edges root front edge.source) (drawn : edge ∈ edges) :
      Route edges root (front ++ [edge.target]) edge.target

/-- The edges that leave a node: two from a decision, none from an end of the flow, else one. -/
structure Leaves (nodes : List Node) (node : Node) (edges : List Edge) : Prop where
  decision : node.style = .decision → ∃ alternative ∈ nodes, ∃ next ∈ nodes, alternative.IsAlternative ∧
    edges = [⟨node.id, alternative.id, some "No"⟩, ⟨node.id, next.id, some "Yes"⟩]
  ending : node.style = .result ∨ node.IsAlternative → edges = []
  passing : node.style ≠ .decision → node.style ≠ .result → ¬ node.IsAlternative →
    ∃ next ∈ nodes, edges = [⟨node.id, next.id, none⟩]

/-- A diagram as a tree in the order of drawing, from the entry to the result. -/
structure Flows (diagram : Diagram) (root : Node) (between : List Node) (last : Node) : Prop where
  nodes : diagram.nodes = root :: (between ++ [last])
  distinct : (diagram.nodes.map (·.id)).Nodup
  forward : ∀ edge ∈ diagram.edges, ∃ (i j : Nat) (first second : Node), i < j ∧
    diagram.nodes[i]? = some first ∧ diagram.nodes[j]? = some second ∧
    edge.source = first.id ∧ edge.target = second.id
  entry : ∀ node ∈ diagram.nodes, node.style = .entry ↔ node = root
  result : ∀ node ∈ diagram.nodes, node.style = .result ↔ node = last
  rootEdges : diagram.edgesTo root.id = []
  incoming : ∀ node ∈ between ++ [last], ∃ edge, diagram.edgesTo node.id = [edge]
  outgoing : ∀ node ∈ diagram.nodes, Leaves diagram.nodes node (diagram.edgesFrom node.id)
  reached : ∀ node ∈ diagram.nodes, ∃! path, Route diagram.edges root.id path node.id
  passes : ∀ path, Route diagram.edges root.id path last.id →
    ∀ node ∈ diagram.nodes, node.routineId.isSome → node.id ∈ path

theorem filter_of_nodup {α : Type} {name : α → String} {items : List α} (distinct : (items.map name).Nodup)
    {item : α} (member : item ∈ items) : (items.filter fun other => name other == name item) = [item] := by
  obtain ⟨front, back, rfl⟩ := List.append_of_mem member
  rw [List.map_append, List.map_cons] at distinct
  obtain ⟨_, behind, apart⟩ := List.nodup_append.mp distinct
  have before : (front.filter fun other => name other == name item) = [] := by
    rw [List.filter_eq_nil_iff]
    intro other among same
    exact apart _ (List.mem_map_of_mem among) _ List.mem_cons_self (beq_iff_eq.mp same)
  have after : (back.filter fun other => name other == name item) = [] := by
    rw [List.filter_eq_nil_iff]
    intro other among same
    exact (List.nodup_cons.mp behind).1 (beq_iff_eq.mp same ▸ List.mem_map_of_mem among)
  rw [List.filter_append, List.filter_cons, before, after, if_pos (beq_self_eq_true _), List.nil_append]

section routes

variable {edges more : List Edge} {root id : String} {path : List String}

theorem Route.mono (route : Route edges root path id) (kept : edges ⊆ more) : Route more root path id := by
  induction route with
  | start => exact .start
  | step _ drawn ih => exact .step ih (kept drawn)

theorem Route.inv (route : Route edges root path id) : (path = [root] ∧ id = root) ∨
    ∃ front, ∃ edge ∈ edges, edge.target = id ∧ path = front ++ [id] ∧ Route edges root front edge.source := by
  cases route with
  | start => exact Or.inl ⟨rfl, rfl⟩
  | step reached drawn => exact Or.inr ⟨_, _, drawn, rfl, rfl, reached⟩

theorem Route.unique (top : root ∉ edges.map (·.target)) (distinct : (edges.map (·.target)).Nodup)
    (route : Route edges root path id) : ∀ other, Route edges root other id → other = path := by
  induction route with
  | start =>
      intro other second
      rcases second.inv with ⟨same, _⟩ | ⟨_, edge, drawn, target, _⟩
      · exact same
      · exact absurd (target ▸ List.mem_map_of_mem drawn) top
  | @step front edge _ drawn ih =>
      intro other second
      rcases second.inv with ⟨_, target⟩ | ⟨behind, twin, among, target, same, reached⟩
      · exact absurd (target ▸ List.mem_map_of_mem drawn) top
      · have equal : twin = edge := List.inj_on_of_nodup_map distinct among drawn target
        rw [same, ih behind (equal ▸ reached)]

end routes

/-- What is drawn: nodes with their names in order, and an edge to each node behind the root from an earlier one. -/
structure Drawn (root : Node) (rest : List Node) (edges : List Edge) : Prop where
  named : (root :: rest).map (·.id) = (List.range (rest.length + 1)).map nodeId
  targets : edges.map (·.target) = rest.map (·.id)
  sources : ∀ (place : Nat) (edge : Edge), edges[place]? = some edge →
    ∃ earlier ≤ place, edge.source = nodeId earlier

namespace Drawn

variable {root node new : Node} {rest : List Node} {edges : List Edge} (drawn : Drawn root rest edges)
include drawn

theorem length_edges : edges.length = rest.length := by
  have lengths := congrArg List.length drawn.targets
  rwa [List.length_map, List.length_map] at lengths

theorem distinct : ((root :: rest).map (·.id)).Nodup := by
  rw [drawn.named]
  exact List.nodup_range.map nodeId_injective

theorem targets_distinct : (edges.map (·.target)).Nodup := by
  rw [drawn.targets]
  exact (List.nodup_cons.mp drawn.distinct).2

theorem root_notMem : root.id ∉ edges.map (·.target) := by
  rw [drawn.targets]
  exact (List.nodup_cons.mp drawn.distinct).1

theorem eq_of_id {other : Node} (member : node ∈ root :: rest) (among : other ∈ root :: rest)
    (same : node.id = other.id) : node = other :=
  List.inj_on_of_nodup_map drawn.distinct member among same

theorem node_at {place : Nat} (bound : place ≤ rest.length) :
    ∃ node, (root :: rest)[place]? = some node ∧ node.id = nodeId place := by
  have here : ((root :: rest).map (·.id))[place]? = some (nodeId place) := by
    rw [drawn.named, List.getElem?_map, List.getElem?_range (Nat.lt_succ_of_le bound)]
    rfl
  rw [List.getElem?_map] at here
  exact Option.map_eq_some_iff.mp here

theorem edge_at {place : Nat} {edge : Edge} (found : edges[place]? = some edge) :
    ∃ earlier first second, earlier < place + 1 ∧ (root :: rest)[earlier]? = some first ∧
      (root :: rest)[place + 1]? = some second ∧ edge.source = first.id ∧ edge.target = second.id := by
  obtain ⟨bound, _⟩ := List.getElem?_eq_some_iff.mp found
  rw [drawn.length_edges] at bound
  obtain ⟨earlier, before, source⟩ := drawn.sources place edge found
  obtain ⟨first, here, named⟩ := drawn.node_at (before.trans (Nat.le_of_lt bound))
  have target : (rest.map (·.id))[place]? = some edge.target := by
    rw [← drawn.targets, List.getElem?_map, found]
    rfl
  rw [List.getElem?_map] at target
  obtain ⟨second, there, same⟩ := Option.map_eq_some_iff.mp target
  exact ⟨earlier, first, second, Nat.lt_succ_of_le before, here, there, source.trans named.symm, same.symm⟩

theorem source_mem {edge : Edge} (member : edge ∈ edges) : edge.source ∈ (root :: rest).map (·.id) := by
  obtain ⟨place, found⟩ := List.mem_iff_getElem?.mp member
  obtain ⟨_, first, _, _, here, _, source, _⟩ := drawn.edge_at found
  exact source ▸ List.mem_map_of_mem (List.mem_of_getElem? here)

theorem add (member : node ∈ root :: rest) (named : new.id = nodeId (rest.length + 1)) (label : Option String) :
    Drawn root (rest ++ [new]) (edges ++ [⟨node.id, new.id, label⟩]) := by
  refine ⟨?_, ?_, ?_⟩
  · rw [← List.cons_append, List.map_append, drawn.named, List.length_append, List.length_singleton,
      List.range_succ (n := rest.length + 1), List.map_append, List.map_singleton, List.map_singleton, named]
  · rw [List.map_append, drawn.targets, List.map_append]
    rfl
  · intro place edge found
    rcases Nat.lt_or_ge place edges.length with early | late
    · rw [List.getElem?_append_left early] at found
      exact drawn.sources place edge found
    · rw [List.getElem?_append_right late, List.getElem?_singleton] at found
      split at found
      · obtain ⟨earlier, here⟩ := List.mem_iff_getElem?.mp member
        obtain ⟨bound, _⟩ := List.getElem?_eq_some_iff.mp here
        have before : earlier ≤ rest.length := Nat.le_of_lt_succ bound
        obtain ⟨twin, found', same⟩ := drawn.node_at before
        rw [here] at found'
        refine ⟨earlier, before.trans (drawn.length_edges ▸ late), ?_⟩
        rw [← Option.some.inj found, ← same, ← Option.some.inj found']
      · cases found

theorem add_leaves (named : new.id = nodeId (rest.length + 1)) :
    (edges.filter fun edge => edge.source == new.id) = [] := by
  rw [List.filter_eq_nil_iff]
  intro edge member same
  have known := drawn.source_mem member
  rw [beq_iff_eq.mp same, named, drawn.named] at known
  obtain ⟨place, bound, equal⟩ := List.mem_map.mp known
  rw [List.mem_range, nodeId_injective equal] at bound
  exact Nat.lt_irrefl _ bound

theorem forward : ∀ edge ∈ edges, ∃ (i j : Nat) (first second : Node), i < j ∧ (root :: rest)[i]? = some first ∧
    (root :: rest)[j]? = some second ∧ edge.source = first.id ∧ edge.target = second.id := by
  intro edge member
  obtain ⟨place, found⟩ := List.mem_iff_getElem?.mp member
  obtain ⟨earlier, first, second, facts⟩ := drawn.edge_at found
  exact ⟨earlier, place + 1, first, second, facts⟩

theorem incoming (member : node ∈ rest) : ∃ edge, (edges.filter fun edge => edge.target == node.id) = [edge] := by
  have targeted : node.id ∈ edges.map (·.target) := drawn.targets ▸ List.mem_map_of_mem member
  obtain ⟨edge, among, same⟩ := List.mem_map.mp targeted
  exact ⟨edge, same ▸ filter_of_nodup drawn.targets_distinct among⟩

theorem root_edges : (edges.filter fun edge => edge.target == root.id) = [] := by
  rw [List.filter_eq_nil_iff]
  intro edge member same
  exact drawn.root_notMem (beq_iff_eq.mp same ▸ List.mem_map_of_mem member)

theorem route_at (place : Nat) :
    ∀ node, (root :: rest)[place]? = some node → ∃ path, Route edges root.id path node.id := by
  -- Each node is reached, by induction on its place: the edge to it comes from an earlier one.
  induction place using Nat.strongRecOn with
  | ind place ih =>
      intro node found
      cases place with
      | zero =>
          rw [← Option.some.inj found]
          exact ⟨_, .start⟩
      | succ place =>
          have target : (edges.map (·.target))[place]? = some node.id := by
            rw [drawn.targets, List.getElem?_map]
            exact congrArg (Option.map (·.id)) found
          rw [List.getElem?_map] at target
          obtain ⟨edge, there, same⟩ := Option.map_eq_some_iff.mp target
          obtain ⟨earlier, first, _, before, here, _, source, _⟩ := drawn.edge_at there
          obtain ⟨path, reached⟩ := ih earlier before first here
          rw [← source] at reached
          exact ⟨_, same ▸ reached.step (List.mem_of_getElem? there)⟩

theorem reached (member : node ∈ root :: rest) : ∃! path, Route edges root.id path node.id := by
  obtain ⟨place, found⟩ := List.mem_iff_getElem?.mp member
  obtain ⟨path, route⟩ := drawn.route_at place node found
  exact ⟨path, route, route.unique drawn.root_notMem drawn.targets_distinct⟩

end Drawn

end FlowAtlas.Diagram
