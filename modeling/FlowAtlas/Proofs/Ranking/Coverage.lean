import FlowAtlas.Layer
import FlowAtlas.Proofs.Ranking.Choice

namespace FlowAtlas.Selection

def Represented (routines : List Routine) (memberIds : List String) : Prop := ∃ routine ∈ routines, routine.id ∈ memberIds

instance (routines : List Routine) (memberIds : List String) : Decidable (Represented routines memberIds) :=
  inferInstanceAs (Decidable (∃ routine ∈ routines, _))

/-- The layers with members of which a list holds none. -/
def missing (layers : Table (List String)) (routines : List Routine) : Table (List String) :=
  layers.filter fun layer => layer.2 ≠ [] ∧ ¬ Represented routines layer.2

/-- Each layer lists the ids of those routines that carry its label. -/
structure Faithful (ranked : List Routine) (layers : Table (List String)) : Prop where
  listed : ∀ layer ∈ layers, ∀ routine ∈ ranked, routine.id ∈ layer.2 ↔ layer.1 ∈ routine.layers
  known : ∀ layer ∈ layers, ∀ id ∈ layer.2, ∃ routine ∈ ranked, routine.id = id

theorem represented_mono {first second : List Routine} {memberIds : List String} (within : first ⊆ second)
    (represented : Represented first memberIds) : Represented second memberIds := by
  obtain ⟨routine, member, listed⟩ := represented
  exact ⟨routine, within member, listed⟩

theorem missing_length_le {first second : List Routine} (within : first ⊆ second) (layers : Table (List String)) :
    (missing layers second).length ≤ (missing layers first).length := by
  rw [missing, missing, ← List.countP_eq_length_filter, ← List.countP_eq_length_filter]
  apply List.countP_mono_left
  intro layer _ absent
  rw [decide_eq_true_eq] at absent ⊢
  exact ⟨absent.1, mt (represented_mono within) absent.2⟩

section faithful

variable {ranked chosen : List Routine} {layers before after : Table (List String)} {cap : Nat}
  {layer : String × List String}

theorem Faithful.sublist {fewer : Table (List String)} (faithful : Faithful ranked layers)
    (within : fewer.Sublist layers) : Faithful ranked fewer :=
  ⟨fun layer member => faithful.listed layer (within.subset member),
    fun layer member => faithful.known layer (within.subset member)⟩

theorem represented_iff_shown (faithful : Faithful ranked layers) (member : layer ∈ layers) (within : chosen ⊆ ranked) :
    Represented chosen layer.2 ↔ Shown chosen layer.1 := by
  apply exists_congr
  intro routine
  apply and_congr_right
  intro held
  exact faithful.listed layer member routine (within held)

theorem serve_append (front back : Table (List String)) : ∀ chosen : List Routine,
    serve ranked cap (front ++ back) chosen = serve ranked cap back (serve ranked cap front chosen) := by
  induction front with
  | nil => exact fun _ => rfl
  | cons layer front ih => exact fun chosen => ih _

theorem serve_represents (faithful : Faithful ranked (layer :: layers)) (given : layer.2 ≠ [])
    (within : chosen ⊆ ranked) (room : chosen.length < cap) :
    Represented (serve ranked cap (layer :: layers) chosen) layer.2 := by
  have kept := (serve_starts ranked cap (layer :: layers) chosen).subset
  have head : layer ∈ layer :: layers := List.mem_cons_self
  by_cases shown : Shown chosen layer.1
  · exact represented_mono kept ((represented_iff_shown faithful head within).mpr shown)
  · have asked : added? ranked cap chosen layer = candidate? ranked chosen layer.2 := if_pos ⟨room, shown⟩
    rw [serve, asked]
    cases found : candidate? ranked chosen layer.2 with
    | none =>
        -- All members are chosen, so there is one that shows the label.
        obtain ⟨id, listed⟩ := List.exists_mem_of_ne_nil _ given
        obtain ⟨routine, held, rfl⟩ := faithful.known layer head id listed
        have taken := candidate_none found routine held listed
        exact absurd ((represented_iff_shown faithful head within).mp ⟨routine, taken, listed⟩) shown
    | some routine =>
        obtain ⟨_, _, listed⟩ := candidate_mem found
        have first := (serve_starts ranked cap layers (chosen ++ [routine])).subset
        exact ⟨routine, first (by simp), listed⟩

theorem serve_eq_of_missing (faithful : Faithful ranked (before ++ layer :: after)) (given : layer.2 ≠ [])
    (distinct : chosen.Nodup) (within : chosen ⊆ ranked)
    (absent : ¬ Represented (serve ranked cap (before ++ layer :: after) chosen) layer.2) :
    cap ≤ (serve ranked cap before chosen).length ∧
      serve ranked cap (before ++ layer :: after) chosen = serve ranked cap before chosen := by
  -- A layer with members that is not represented came when the cap was used up.
  rw [serve_append] at absent ⊢
  have inside : serve ranked cap before chosen ⊆ ranked := (serve_distinct before distinct within).2
  have full : cap ≤ (serve ranked cap before chosen).length := by
    by_contra room
    exact absent (serve_represents (faithful.sublist (List.sublist_append_right _ _)) given inside (by omega))
  exact ⟨full, serve_full _ full⟩

theorem added_missing (faithful : Faithful ranked (layer :: layers)) (within : chosen ⊆ ranked) {routine : Routine}
    (added : added? ranked cap chosen layer = some routine) :
    routine.id ∈ layer.2 ∧ ¬ Represented chosen layer.2 := by
  obtain ⟨_, hidden, found⟩ := added_some added
  refine ⟨(candidate_mem found).2.2, ?_⟩
  rwa [represented_iff_shown faithful List.mem_cons_self within]

theorem serve_added (layers : Table (List String)) : ∀ {chosen : List Routine}, chosen.Nodup → chosen ⊆ ranked →
    Faithful ranked layers → ∀ place routine, chosen.length ≤ place →
      (serve ranked cap layers chosen)[place]? = some routine →
      ∃ layer ∈ layers, routine.id ∈ layer.2 ∧
        ¬ Represented ((serve ranked cap layers chosen).take place) layer.2 := by
  induction layers with
  | nil =>
      intro chosen _ _ _ place routine beyond found
      rw [serve, List.getElem?_eq_none beyond] at found
      cases found
  | cons layer layers ih =>
      intro chosen distinct within faithful place routine beyond found
      have later := faithful.sublist (List.sublist_cons_self layer layers)
      rw [serve] at found ⊢
      cases added : added? ranked cap chosen layer with
      | none =>
          rw [added, Option.toList_none, List.append_nil] at found
          obtain ⟨other, member, listed⟩ := ih distinct within later place routine beyond found
          rw [Option.toList_none, List.append_nil]
          exact ⟨other, List.mem_cons_of_mem _ member, listed⟩
      | some first =>
          rw [added, Option.toList_some] at found
          rw [Option.toList_some]
          by_cases here : place = chosen.length
          · obtain ⟨rest, whole⟩ := serve_starts ranked cap layers (chosen ++ [first])
            rw [← whole, List.append_assoc, here] at found ⊢
            rw [List.getElem?_append_right (Nat.le_refl _), Nat.sub_self] at found
            rw [List.take_left]
            have same : first = routine := Option.some.inj found
            exact ⟨layer, List.mem_cons_self, same ▸ added_missing faithful within added⟩
          · obtain ⟨once, inside⟩ := added_distinct added distinct within
            have further : (chosen ++ [first]).length ≤ place := by
              rw [List.length_append, List.length_singleton]
              omega
            obtain ⟨other, member, listed⟩ := ih once inside later place routine further found
            exact ⟨other, List.mem_cons_of_mem _ member, listed⟩

theorem serve_length_le_missing (cap : Nat) (layers : Table (List String)) : ∀ {chosen : List Routine},
    chosen.Nodup → chosen ⊆ ranked → Faithful ranked layers →
      (serve ranked cap layers chosen).length ≤ chosen.length + (missing layers chosen).length := by
  induction layers with
  | nil => simp [serve]
  | cons layer layers ih =>
      intro chosen distinct within faithful
      have later := faithful.sublist (List.sublist_cons_self layer layers)
      rw [serve]
      cases added : added? ranked cap chosen layer with
      | none =>
          have fewer : (missing layers chosen).length ≤ (missing (layer :: layers) chosen).length :=
            ((List.sublist_cons_self layer layers).filter _).length_le
          have step := ih distinct within later
          rw [Option.toList_none, List.append_nil]
          omega
      | some first =>
          obtain ⟨listed, absent⟩ := added_missing faithful within added
          have counted : (missing (layer :: layers) chosen).length = (missing layers chosen).length + 1 := by
            have given : layer.2 ≠ [] := List.ne_nil_of_mem listed
            simp [missing, absent, given]
          obtain ⟨once, inside⟩ := added_distinct added distinct within
          have step := ih once inside later
          have shrunk := missing_length_le (List.subset_append_left chosen [first]) layers
          rw [List.length_append, List.length_singleton] at step
          rw [Option.toList_some]
          omega

end faithful

theorem classify_faithful {routines : List Routine} (distinct : (routines.map (·.id)).Nodup) :
    Faithful (Ranking.rank ((classify routines).1.map Routine.scored)) (classify routines).2 := by
  have ranks := Ranking.rank_ranks ((classify routines).1.map Routine.scored)
  have once : ((classify routines).1.map (·.id)).Nodup := by
    rw [classify, List.map_map]
    exact distinct
  constructor
  · intro layer member routine held
    obtain ⟨label, _, rfl⟩ := List.mem_map.mp member
    obtain ⟨plain, among, rfl⟩ := List.mem_map.mp (ranks.perm.mem_iff.mp held)
    constructor
    · intro listed
      obtain ⟨other, carries, same⟩ := List.mem_map.mp listed
      obtain ⟨inside, carries⟩ := List.mem_filter.mp carries
      rw [← List.inj_on_of_nodup_map once inside among same]
      exact List.contains_iff_mem.mp carries
    · intro carries
      exact List.mem_map.mpr ⟨plain, List.mem_filter.mpr ⟨among, List.contains_iff_mem.mpr carries⟩, rfl⟩
  · intro layer member id listed
    obtain ⟨label, _, rfl⟩ := List.mem_map.mp member
    obtain ⟨plain, carries, rfl⟩ := List.mem_map.mp listed
    have among := (List.mem_filter.mp carries).1
    exact ⟨plain.scored, ranks.perm.mem_iff.mpr (List.mem_map_of_mem among), rfl⟩

section selection

variable {ranked : List Routine} {layers before after : Table (List String)} {layer : String × List String} {cap : Nat}

theorem phases_eq_of_missing (distinct : ranked.Nodup) (faithful : Faithful ranked layers)
    (split : layers = before ++ layer :: after) (given : layer.2 ≠ [])
    (absent : ¬ Represented (phases ranked layers cap) layer.2) :
    phases ranked layers cap = serve ranked cap before (top ranked cap) ∧
      (phases ranked layers cap).length = cap := by
  have begun : served ranked layers cap <+: phases ranked layers cap := List.prefix_append _ _
  have unserved : ¬ Represented (serve ranked cap (before ++ layer :: after) (top ranked cap)) layer.2 := by
    rw [← split]
    exact mt (represented_mono begun.subset) absent
  obtain ⟨full, same⟩ := serve_eq_of_missing (split ▸ faithful) given (top_nodup distinct cap) (top_subset ranked cap)
    unserved
  have known : served ranked layers cap = serve ranked cap before (top ranked cap) := by
    rw [served, split, same]
  have filled : (served ranked layers cap).length = cap := by
    have within := served_length_le ranked layers cap
    rw [known] at within ⊢
    omega
  have spent : min cap ranked.length - (served ranked layers cap).length = 0 := by omega
  have bare : phases ranked layers cap = served ranked layers cap := by
    simp only [phases, spent, List.take_zero, List.append_nil]
  exact ⟨bare.trans known, by rw [bare, filled]⟩

theorem room_lt_missing (distinct : ranked.Nodup) (faithful : Faithful ranked layers)
    (split : layers = before ++ layer :: after) (given : layer.2 ≠ [])
    (absent : ¬ Represented (phases ranked layers cap) layer.2) :
    cap < min 8 cap + (missing layers (top ranked cap)).length := by
  obtain ⟨same, full⟩ := phases_eq_of_missing distinct faithful split given absent
  have begun : top ranked cap ⊆ phases ranked layers cap := by
    rw [same]
    exact (serve_starts ranked cap before _).subset
  have hidden : ¬ Represented (top ranked cap) layer.2 := mt (represented_mono begun) absent
  have counted : (missing before (top ranked cap)).length + 1 ≤ (missing layers (top ranked cap)).length := by
    rw [split]
    simp [missing, hidden, given]
  have early : Faithful ranked before := by
    rw [split] at faithful
    exact faithful.sublist (List.sublist_append_left _ _)
  have bound := serve_length_le_missing cap before (top_nodup distinct cap) (top_subset ranked cap) early
  have tops := top_length ranked cap
  rw [← same, full] at bound
  omega

end selection

end FlowAtlas.Selection

namespace FlowAtlas

open Selection

end FlowAtlas
