import FlowAtlas.Proofs.Ranking.Choice
import Mathlib.Data.List.Find

namespace FlowAtlas

def Routine.unlinked (routine : Routine) : Routine := { routine with incoming := [] }

def Reordered (first second : Table (List String)) : Prop :=
  List.Forall₂ (fun before after => before.1 = after.1 ∧ before.2.Perm after.2) first second

namespace Ranking

def TiesKept (first second : List Routine) : Prop :=
  ∀ importance : Int, (first.filter fun routine => routine.importance = importance) =
    second.filter fun routine => routine.importance = importance

section ties

variable {first second : List Routine}

theorem TiesKept.symm (kept : TiesKept first second) : TiesKept second first := fun importance => (kept importance).symm

theorem TiesKept.subset (kept : TiesKept first second) : first ⊆ second := by
  intro routine member
  have among : routine ∈ first.filter fun other => other.importance = routine.importance := by simp [member]
  rw [kept] at among
  exact List.mem_of_mem_filter among

theorem TiesKept.descending (kept : TiesKept first second)
    (front : first.Pairwise fun one other => other.importance ≤ one.importance)
    (back : second.Pairwise fun one other => other.importance ≤ one.importance) : first = second := by
  induction first generalizing second with
  | nil => exact (List.eq_nil_of_subset_nil kept.symm.subset).symm
  | cons routine rest ih =>
      cases second with
      | nil => exact absurd (kept.subset List.mem_cons_self) List.not_mem_nil
      | cons other others =>
          obtain ⟨lower, ordered⟩ := List.pairwise_cons.mp front
          obtain ⟨below, sorted⟩ := List.pairwise_cons.mp back
          -- Each head stands somewhere in the other list, so the heads tie, and ties come in one order.
          have upper : routine.importance ≤ other.importance := by
            rcases List.mem_cons.mp (kept.subset List.mem_cons_self) with same | behind
            · rw [same]
            · exact below routine behind
          have under : other.importance ≤ routine.importance := by
            rcases List.mem_cons.mp (kept.symm.subset List.mem_cons_self) with same | behind
            · rw [same]
            · exact lower other behind
          have tied : other.importance = routine.importance := Int.le_antisymm under upper
          have heads := kept routine.importance
          rw [List.filter_cons_of_pos (by simp), List.filter_cons_of_pos (by simp [tied])] at heads
          obtain ⟨rfl, _⟩ := List.cons.inj heads
          have tails : TiesKept rest others := by
            intro importance
            have both := kept importance
            rw [List.filter_cons, List.filter_cons] at both
            split at both
            · exact (List.cons.inj both).2
            · exact both
          rw [ih tails ordered sorted]

theorem TiesKept.rank (kept : TiesKept first second) : rank first = rank second := by
  have before := rank_ranks first
  have after := rank_ranks second
  refine TiesKept.descending ?_ before.descending after.descending
  intro importance
  rw [before.stable, after.stable, kept]

end ties

theorem insert_unlinked (routine : Routine) (ranked : List Routine) :
    insert routine.unlinked (ranked.map Routine.unlinked) = (insert routine ranked).map Routine.unlinked := by
  induction ranked with
  | nil => rfl
  | cons next rest ih =>
      rw [List.map_cons, insert, insert, ih]
      change (if next.importance ≤ routine.importance then _ else _) = _
      split <;> rfl

theorem rank_unlinked (routines : List Routine) :
    rank (routines.map Routine.unlinked) = (rank routines).map Routine.unlinked := by
  induction routines with
  | nil => rfl
  | cons routine rest ih =>
      have next : rank (routine :: rest) = insert routine (rank rest) := rfl
      have bare : rank ((routine :: rest).map Routine.unlinked) =
          insert routine.unlinked (rank (rest.map Routine.unlinked)) := rfl
      rw [bare, next, ih, insert_unlinked]

end Ranking

namespace Selection

theorem candidate_reordered {ranked chosen : List Routine} {first second : List String}
    (reordered : first.Perm second) :
    candidate? ranked chosen first = candidate? ranked chosen second := by
  simp only [candidate?, reordered.mem_iff]

theorem serve_reordered {ranked : List Routine} {cap : Nat} {first second : Table (List String)}
    (reordered : Reordered first second) :
    ∀ chosen, serve ranked cap first chosen = serve ranked cap second chosen := by
  induction reordered with
  | nil => exact fun _ => rfl
  | cons alike _ ih =>
      intro chosen
      have same : ∀ layer other : String × List String, layer.1 = other.1 ∧ layer.2.Perm other.2 →
          added? ranked cap chosen layer = added? ranked cap chosen other := by
        rintro layer other ⟨labels, ids⟩
        rw [added?, added?, labels, candidate_reordered ids]
      rw [serve, serve, same _ _ alike, ih]

theorem phases_reordered {first second : Table (List String)} (reordered : Reordered first second)
    (ranked : List Routine) (cap : Nat) : phases ranked first cap = phases ranked second cap := by
  have same : served ranked first cap = served ranked second cap := serve_reordered reordered _
  simp only [phases, same]

section unlinked

variable {ranked : List Routine} (distinct : (ranked.map (·.id)).Nodup)

theorem shown_unlinked (chosen : List Routine) (label : String) :
    Shown (chosen.map Routine.unlinked) label ↔ Shown chosen label := by
  simp [Shown, Routine.unlinked]

include distinct

theorem mem_unlinked {chosen : List Routine} (known : chosen ⊆ ranked) {routine : Routine} (member : routine ∈ ranked) :
    routine.unlinked ∈ chosen.map Routine.unlinked ↔ routine ∈ chosen := by
  constructor
  · intro among
    obtain ⟨other, held, same⟩ := List.mem_map.mp among
    have ids : other.unlinked.id = routine.unlinked.id := congrArg Routine.id same
    rwa [← List.inj_on_of_nodup_map distinct (known held) member ids]
  · exact List.mem_map_of_mem

theorem candidate_unlinked {chosen : List Routine} (known : chosen ⊆ ranked) (memberIds : List String) :
    candidate? (ranked.map Routine.unlinked) (chosen.map Routine.unlinked) memberIds =
      (candidate? ranked chosen memberIds).map Routine.unlinked := by
  rw [candidate?, List.find?_map, candidate?]
  congr 1
  refine List.find?_congr fun routine member => ?_
  have same := mem_unlinked distinct known member
  simp only [Function.comp_apply, same]
  rfl

theorem serve_unlinked {cap : Nat} (layers : Table (List String)) : ∀ {chosen : List Routine}, chosen ⊆ ranked →
    serve (ranked.map Routine.unlinked) cap layers (chosen.map Routine.unlinked) =
      (serve ranked cap layers chosen).map Routine.unlinked := by
  induction layers with
  | nil => exact fun _ => rfl
  | cons layer layers ih =>
      intro chosen known
      have added : added? (ranked.map Routine.unlinked) cap (chosen.map Routine.unlinked) layer =
          (added? ranked cap chosen layer).map Routine.unlinked := by
        simp only [added?, List.length_map, shown_unlinked, candidate_unlinked distinct known]
        split <;> rfl
      have onward : chosen ++ (added? ranked cap chosen layer).toList ⊆ ranked := by
        refine List.append_subset.mpr ⟨known, fun routine among => ?_⟩
        exact (candidate_mem (added_some (Option.mem_toList.mp among)).2.2).1
      rw [serve, serve, added, ← ih onward, List.map_append, Option.toList_map]

theorem phases_unlinked (layers : Table (List String)) (cap : Nat) :
    phases (ranked.map Routine.unlinked) layers cap = (phases ranked layers cap).map Routine.unlinked := by
  have front : served (ranked.map Routine.unlinked) layers cap = (served ranked layers cap).map Routine.unlinked := by
    have tops : top (ranked.map Routine.unlinked) cap = (top ranked cap).map Routine.unlinked := by
      rw [top, top, List.map_take]
    rw [served, served, tops]
    exact serve_unlinked distinct layers (top_subset ranked cap)
  have known : served ranked layers cap ⊆ ranked := (served_distinct (distinct.of_map _) layers cap).2
  have others : ((ranked.map Routine.unlinked).filter fun routine =>
      routine ∉ (served ranked layers cap).map Routine.unlinked) =
        (ranked.filter fun routine => routine ∉ served ranked layers cap).map Routine.unlinked := by
    rw [List.filter_map]
    congr 1
    refine List.filter_congr fun routine member => ?_
    simp only [Function.comp_apply, mem_unlinked distinct known member]
  simp only [phases, front, others, List.map_append, List.map_take, List.length_map]

end unlinked

/-- A cap below zero leaves out as many routines at the end of the ranking, and is always exceeded. -/
theorem select_negative {routines : List Routine} (distinct : (routines.map (·.id)).Nodup)
    (layers : Table (List String)) {cap : Int} (negative : cap < 0) :
    select routines layers cap = .error (.overCap (routines.length - cap.natAbs) cap) := by
  let ranked := Ranking.rank routines
  have ranks : Ranking.Ranks routines ranked := Ranking.rank_ranks routines
  have once : ranked.Nodup := (ranked_distinct distinct ranks).of_map _
  have counted : takeCount (min primaryCount cap) ranked = ranked.take (routines.length - cap.natAbs) := by
    have least : min primaryCount cap = cap := by
      rw [primaryCount]
      omega
    rw [takeCount, least, if_neg (by omega), ranks.length]
  have primary : (takeCount (min primaryCount cap) ranked).foldl take [] =
      ranked.take (routines.length - cap.natAbs) := by
    rw [counted]
    exact foldl_take_eq distinct _ [] (once.sublist (List.take_sublist _ _)) fun _ member =>
      ranks.perm.subset (List.take_subset _ _ member)
  have full : ∀ chosen : List Routine, cap ≤ chosen.length := fun chosen => by omega
  have filled : ∀ chosen covered, backfill routines ranked cap layers chosen covered = chosen := by
    intro chosen covered
    cases layers with
    | nil => rfl
    | cons layer layers =>
        rw [backfill]
        exact if_pos (full chosen)
  have kept : ∀ chosen, fill (min cap ranked.length) ranked chosen = chosen := by
    intro chosen
    cases ranked with
    | nil => rfl
    | cons routine rest =>
        rw [fill]
        exact if_pos (by omega)
  have length : (ranked.take (routines.length - cap.natAbs)).length = routines.length - cap.natAbs := by
    rw [List.length_take, ranks.length]
    omega
  have gathered : gather routines layers cap = ranked.take (routines.length - cap.natAbs) := by
    rw [gather, primary, filled, kept]
  rw [select_eq, gathered, if_pos (by omega), length]

end Selection

end FlowAtlas
