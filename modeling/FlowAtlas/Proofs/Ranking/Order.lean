import FlowAtlas.Ranking.Importance
import Mathlib.Data.List.Basic

/-! The ranking is the one stable order by descending importance. -/

namespace FlowAtlas.Ranking

/-- The same routines by descending importance, equals in the order of the first list. -/
structure Ranks (routines ranked : List Routine) : Prop where
  perm : ranked.Perm routines
  descending : ranked.Pairwise fun first second => second.importance ≤ first.importance
  stable : ∀ importance : Int, (ranked.filter fun routine => routine.importance = importance) =
    routines.filter fun routine => routine.importance = importance

variable {routine : Routine} {ranked : List Routine}

theorem insert_perm (routine : Routine) (ranked : List Routine) : (insert routine ranked).Perm (routine :: ranked) := by
  induction ranked with
  | nil => exact List.Perm.refl _
  | cons next rest ih =>
      rw [insert]
      split
      · exact List.Perm.refl _
      · exact (ih.cons next).trans (List.Perm.swap routine next rest)

theorem insert_descending (descending : ranked.Pairwise fun first second => second.importance ≤ first.importance) :
    (insert routine ranked).Pairwise fun first second => second.importance ≤ first.importance := by
  induction ranked with
  | nil => simp [insert]
  | cons next rest ih =>
      obtain ⟨lower, others⟩ := List.pairwise_cons.mp descending
      rw [insert]
      split
      · rename_i above
        refine List.pairwise_cons.mpr ⟨?_, descending⟩
        intro other member
        rcases List.mem_cons.mp member with rfl | member
        · exact above
        · exact Int.le_trans (lower other member) above
      · rename_i below
        refine List.pairwise_cons.mpr ⟨?_, ih others⟩
        intro other member
        rcases List.mem_cons.mp ((insert_perm routine rest).mem_iff.mp member) with rfl | member
        · omega
        · exact lower other member

theorem insert_filter (routine : Routine) (ranked : List Routine) (importance : Int) :
    (insert routine ranked).filter (fun routine => routine.importance = importance) =
      (routine :: ranked).filter fun routine => routine.importance = importance := by
  induction ranked with
  | nil => rfl
  | cons next rest ih =>
      rw [insert]
      split
      · rfl
      · rename_i below
        rw [List.filter_cons, ih]
        by_cases held : next.importance = importance
        · have apart : ¬ routine.importance = importance := by omega
          simp [held, apart]
        · simp [List.filter_cons, held]

theorem rank_ranks (routines : List Routine) : Ranks routines (rank routines) := by
  induction routines with
  | nil => exact ⟨List.Perm.refl _, List.Pairwise.nil, fun _ => rfl⟩
  | cons routine rest ih =>
      have next : rank (routine :: rest) = insert routine (rank rest) := rfl
      rw [next]
      refine ⟨?_, insert_descending ih.descending, ?_⟩
      · exact (insert_perm routine _).trans (ih.perm.cons routine)
      · intro importance
        rw [insert_filter, List.filter_cons, List.filter_cons, ih.stable]

theorem Ranks.filter {routines ranked : List Routine} (ranks : Ranks routines ranked) (chosen : Routine → Bool) :
    Ranks (routines.filter chosen) (ranked.filter chosen) where
  perm := ranks.perm.filter chosen
  descending := ranks.descending.filter chosen
  stable := by
    intro importance
    rw [List.filter_comm, ranks.stable, List.filter_comm]

theorem Ranks.find {routines ranked : List Routine} (ranks : Ranks routines ranked) {chosen : Routine → Bool}
    {first : Routine} (found : ranked.find? chosen = some first) :
    ∃ front back, routines = front ++ first :: back ∧
      (∀ other ∈ front, chosen other = true → other.importance < first.importance) ∧
      ∀ other ∈ back, chosen other = true → other.importance ≤ first.importance := by
  have within := ranks.filter chosen
  obtain ⟨rest, top⟩ : ∃ rest, ranked.filter chosen = first :: rest := by
    apply List.head?_eq_some_iff.mp
    rw [List.head?_filter]
    exact found
  rw [top] at within
  have greatest : ∀ other ∈ routines, chosen other = true → other.importance ≤ first.importance := by
    intro other member kind
    have listed := within.perm.mem_iff.mpr (List.mem_filter.mpr ⟨member, kind⟩)
    rcases List.mem_cons.mp listed with rfl | later
    · exact Int.le_refl _
    · exact (List.pairwise_cons.mp within.descending).1 other later
  have equals := within.stable first.importance
  rw [List.filter_cons_of_pos (by simp), List.filter_filter] at equals
  have earliest := congrArg List.head? equals
  rw [List.head?_cons, List.head?_filter] at earliest
  obtain ⟨-, front, back, same, before⟩ := List.find?_eq_some_iff_append.mp earliest.symm
  refine ⟨front, back, same, ?_, ?_⟩
  · intro other member kind
    have bound := greatest other (same ▸ List.mem_append_left _ member) kind
    have differ : other.importance ≠ first.importance := by simpa [kind] using before other member
    omega
  · intro other member kind
    exact greatest other (same ▸ List.mem_append_right _ (List.mem_cons_of_mem _ member)) kind

theorem Ranks.length {routines ranked : List Routine} (ranks : Ranks routines ranked) :
    ranked.length = routines.length := ranks.perm.length_eq

end FlowAtlas.Ranking
