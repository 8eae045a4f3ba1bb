import FlowAtlas.Proofs.Analysis.Routines
import FlowAtlas.Proofs.Ranking.Choice

namespace FlowAtlas

open Selection

theorem select_error_iff (routines : List Routine) (layers : Table (List String)) (cap : Int) :
    (∃ fault, select routines layers cap = .error fault) ↔ cap < 0 := by
  constructor
  · rintro ⟨fault, failed⟩
    by_contra nonneg
    rw [select_ok (not_lt.mp nonneg)] at failed
    cases failed
  · intro negative
    refine ⟨_, (select_eq routines layers cap).trans (if_pos ?_)⟩
    omega

theorem select_distinct {routines selected : List Routine} {layers : Table (List String)} {cap : Int}
    (kept : select routines layers cap = .ok selected) : (selected.map (·.id)).Nodup := by
  rw [select_eq] at kept
  split at kept
  · cases kept
  · rw [← Except.ok.inj kept]
    exact gather_distinct routines layers cap

theorem select_subset {routines : List Routine} (distinct : (routines.map (·.id)).Nodup)
    (layers : Table (List String)) (cap : Nat) :
    let selected := phases (Ranking.rank routines) layers cap
    selected.length = min cap routines.length ∧ selected ⊆ routines ∧ (selected.map (·.id)).Nodup := by
  intro selected
  have ranks := Ranking.rank_ranks routines
  have ids := ranked_distinct distinct ranks
  have within : selected.Subperm (Ranking.rank routines) := phases_subperm (ids.of_map _) layers cap
  refine ⟨?_, ?_, ?_⟩
  · rw [← ranks.length]
    exact phases_length (ids.of_map _) layers cap
  · exact fun _ member => ranks.perm.subset (within.subset member)
  · obtain ⟨others, same, kept⟩ := within
    exact (same.map _).nodup_iff.mp (ids.sublist (kept.map _))

end FlowAtlas
