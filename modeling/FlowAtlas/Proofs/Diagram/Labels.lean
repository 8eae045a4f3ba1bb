import FlowAtlas.Proofs.Diagram.Emission
import FlowAtlas.Proofs.Diagram.NodeOrder
import FlowAtlas.Proofs.Diagram.Statements
import FlowAtlas.Proofs.Naming.Titles

namespace FlowAtlas.Diagram

theorem lettersReversed_isUpper (count : Nat) : ∀ c ∈ lettersReversed count, c.isUpper = true := by
  have capitals : ∀ place < 26, (Char.ofNat (65 + place)).isUpper = true := by decide
  induction count using lettersReversed.induct with
  | case1 =>
      rw [lettersReversed, if_pos rfl]
      exact List.forall_mem_nil _
  | case2 count positive ih =>
      rw [lettersReversed, if_neg positive]
      exact List.forall_mem_cons.mpr ⟨capitals _ (Nat.mod_lt _ (by decide)), ih⟩

theorem nodeId_isName (place : Nat) : IsName (nodeId place) := by
  constructor
  case given =>
    intro empty
    have none := congrArg String.toList empty
    rw [nodeId, idOfCount, String.toList_ofList, letters_succ] at none
    exact List.append_ne_nil_of_right_ne_nil _ (List.cons_ne_nil _ _) none
  case letters =>
    intro c member
    rw [nodeId, idOfCount, String.toList_ofList, List.mem_reverse] at member
    exact lettersReversed_isUpper _ c member

section plain

theorem title_plain {name : String} (word : ∀ c ∈ name.toList, Text.isWord c = true) : IsPlain (Naming.title name) := by
  intro c member
  have apart : ∀ mark, Text.IsMark mark → mark ≠ ' ' → c ≠ mark := by
    intro mark isMark visible same
    exact Naming.title_noMark word isMark visible (same ▸ member)
  exact ⟨apart _ (by decide) (by decide), apart _ (by decide) (by decide), apart _ (by decide) (by decide)⟩

theorem question_plain (name : String) : IsPlain (Naming.question name) := by
  have listed : ∀ entry ∈ Naming.questions, IsPlain entry.2 := by decide
  rw [Naming.question]
  split
  · rename_i entry found
    exact listed entry (List.mem_of_find?_eq_some found)
  · decide

variable {selected : List Routine} (named : ∀ routine ∈ selected, ∀ c ∈ routine.name.toList, Text.isWord c = true)
include named

theorem Depicts.plain {node : Node} (depicts : Depicts selected node) : IsPlain node.label := by
  have first : ∀ routine ∈ Ranking.rank selected, IsPlain (Naming.title routine.name) := fun routine member =>
    title_plain (named routine ((Ranking.rank_ranks selected).perm.mem_iff.mp member))
  have behind : ∀ routine ∈ afterEntry selected, IsPlain (Naming.title routine.name) := fun routine member =>
    title_plain (named routine (afterEntry_subset selected member))
  cases depicts with
  | start | alternative | result =>
      dsimp only
      decide
  | entry _ found => exact first _ (entryOf_mem found)
  | initializer _ member | step _ member => exact behind _ (List.mem_of_mem_filter member)
  | @decision _ routine member =>
      have title := behind routine (List.mem_of_mem_filter member)
      have colon : IsPlain ": " := by decide
      exact (title.append colon).append (question_plain routine.name)

end plain

section drawn

variable (selected : List Routine) (layers : Table (List String))

theorem ids_named : ∀ id ∈ (chainOf selected layers).nodes.map (·.id), IsName id := by
  rw [(chainOf_filed selected layers).named]
  exact List.forall_mem_map.mpr fun place _ => nodeId_isName place

def answers : List (Option String) := [none, some "No", some "Yes"]

theorem edges_answer : ∀ edge ∈ (chainOf selected layers).edges, edge.label ∈ answers := by
  have none : none ∈ answers := by decide
  have no : some "No" ∈ answers := by decide
  have yes : some "Yes" ∈ answers := by decide
  have kept : (∀ edge ∈ (chainOf selected layers).edges, edge.label ∈ answers) ∧
      (chainOf selected layers).pending ∈ answers := by
    apply chainOf_keeps (motive := fun chain =>
      (∀ edge ∈ chain.edges, edge.label ∈ answers) ∧ chain.pending ∈ answers)
    · intro entry
      cases entry <;> exact ⟨nofun, none⟩
    · intro chain label style shape routineId held
      exact ⟨List.forall_mem_append.mpr ⟨held.1, List.forall_mem_singleton.mpr held.2⟩, none⟩
    · intro chain held
      exact ⟨List.forall_mem_append.mpr ⟨held.1, List.forall_mem_singleton.mpr no⟩, yes⟩
  exact kept.1

variable {selected layers}

theorem subgraphs_named {subgraph : Subgraph} (member : subgraph ∈ (ofSelection selected layers).subgraphs) :
    subgraph.layer ∈ Layer.labels ∧ ∀ id ∈ subgraph.nodeIds, IsName id := by
  obtain ⟨label, listed, found⟩ := List.mem_filterMap.mp member
  rw [subgraphOf?] at found
  split at found
  · cases found
  · rw [← Option.some.inj found]
    refine ⟨listed, ?_⟩
    intro id held
    obtain ⟨routine, -, placed⟩ := List.mem_filterMap.mp ((sortIds_perm _).mem_iff.mp held)
    exact ids_named selected layers id ((chainOf_filed selected layers).known _ (Table.mem_of_get? placed))

end drawn

end FlowAtlas.Diagram
