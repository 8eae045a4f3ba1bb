import FlowAtlas.Ranking.Selection
import Mathlib.Data.List.Nodup
import Mathlib.Order.Lattice

namespace FlowAtlas.Selection

theorem take_length (selected : List Routine) (routine : Routine) :
    (take selected routine).length ≤ selected.length + 1 := by
  rw [take]
  split <;> simp

theorem foldl_take_length (routines : List Routine) : ∀ selected : List Routine,
    (routines.foldl take selected).length ≤ selected.length + routines.length := by
  induction routines with
  | nil => simp
  | cons routine rest ih =>
      intro selected
      have one := take_length selected routine
      have others := ih (take selected routine)
      rw [List.foldl_cons, List.length_cons]
      omega

theorem takeCount_length {count : Int} (nonneg : 0 ≤ count) (routines : List Routine) :
    ((takeCount count routines).length : Int) ≤ count := by
  rw [takeCount, if_pos nonneg, List.length_take]
  omega

section keeps

/-! The phases behind the top take one routine after the other while there is room, so they keep what each of these
steps keeps. -/

variable (P : List Routine → Prop)

theorem backfill_keeps (routines ranked : List Routine) {cap : Int}
    (taken : ∀ selected routine, (selected.length : Int) < cap → P selected → P (take selected routine))
    (layers : Table (List String)) : ∀ {selected : List Routine} (covered : List String), P selected →
      P (backfill routines ranked cap layers selected covered) := by
  induction layers with
  | nil => exact fun _ holds => holds
  | cons entry rest ih =>
      intro selected covered holds
      rw [backfill]
      split
      · exact holds
      · rename_i room
        split
        · exact ih covered holds
        · dsimp only
          split
          · exact ih covered holds
          · exact ih _ (taken _ _ (not_le.mp room) holds)

theorem fill_keeps {limit : Int}
    (taken : ∀ selected routine, (selected.length : Int) < limit → P selected → P (take selected routine))
    (routines : List Routine) : ∀ {selected : List Routine}, P selected → P (fill limit routines selected) := by
  induction routines with
  | nil => exact id
  | cons routine rest ih =>
      intro selected holds
      rw [fill]
      split
      · exact holds
      · rename_i room
        exact ih (taken _ _ (not_le.mp room) holds)

end keeps

theorem take_within {cap : Int} (selected : List Routine) (routine : Routine) (room : (selected.length : Int) < cap) :
    ((take selected routine).length : Int) ≤ cap := by
  have one := take_length selected routine
  omega

theorem gather_length {cap : Int} (nonneg : 0 ≤ cap) (routines : List Routine) (layers : Table (List String)) :
    ((gather routines layers cap).length : Int) ≤ cap := by
  let ranked := Ranking.rank routines
  let primary := (takeCount (min primaryCount cap) ranked).foldl take []
  have first : (primary.length : Int) ≤ cap := by
    have few := foldl_take_length (takeCount (min primaryCount cap) ranked) []
    have counted := takeCount_length (by rw [primaryCount]; omega : 0 ≤ min primaryCount cap) ranked
    change primary.length ≤ 0 + _ at few
    omega
  have second : ((backfill routines ranked cap layers primary (primary.flatMap (·.layers))).length : Int) ≤ cap :=
    backfill_keeps (fun selected => (selected.length : Int) ≤ cap) routines ranked
      (fun selected routine room _ => take_within selected routine room) layers _ first
  refine fill_keeps (fun selected => (selected.length : Int) ≤ cap) (fun selected routine room _ => ?_) ranked second
  exact take_within selected routine (room.trans_le (min_le_left _ _))

theorem take_distinct {selected : List Routine} (once : (selected.map (·.id)).Nodup) (routine : Routine) :
    ((take selected routine).map (·.id)).Nodup := by
  rw [take]
  split
  · exact once
  · rename_i fresh
    rw [List.map_append, List.nodup_append]
    refine ⟨once, List.nodup_singleton _, ?_⟩
    intro id chosen other alone same
    obtain ⟨held, member, rfl⟩ := List.mem_map.mp chosen
    rw [List.map_singleton, List.mem_singleton] at alone
    exact fresh (List.any_eq_true.mpr ⟨held, member, by simp [same, alone]⟩)

theorem foldl_take_distinct (routines : List Routine) : ∀ {selected : List Routine},
    (selected.map (·.id)).Nodup → ((routines.foldl take selected).map (·.id)).Nodup := by
  induction routines with
  | nil => exact id
  | cons routine rest ih => exact fun once => ih (take_distinct once routine)

/-- No phase takes an id twice, whatever ids the routines have. -/
theorem gather_distinct (routines : List Routine) (layers : Table (List String)) (cap : Int) :
    ((gather routines layers cap).map (·.id)).Nodup := by
  let apart := fun selected : List Routine => (selected.map (·.id)).Nodup
  have taken : ∀ limit selected routine, (selected.length : Int) < limit → apart selected →
      apart (take selected routine) := fun _ _ routine _ once => take_distinct once routine
  refine fill_keeps apart (taken _) _ (backfill_keeps apart routines _ (taken cap) layers _ ?_)
  exact foldl_take_distinct _ List.nodup_nil

theorem eraseDups_of_nodup {ids : List String} (once : ids.Nodup) : ids.eraseDups = ids := by
  induction ids with
  | nil => rfl
  | cons id rest ih =>
      obtain ⟨fresh, once⟩ := List.nodup_cons.mp once
      have others : rest.filter (fun other => !other == id) = rest := by
        rw [List.filter_eq_self]
        intro other member
        simpa using fun same : other = id => fresh (same ▸ member)
      rw [List.eraseDups_cons, others, ih once]

/-- An id is never chosen twice, so only the cap can be at fault. -/
theorem select_eq (routines : List Routine) (layers : Table (List String)) (cap : Int) :
    select routines layers cap =
      if cap < (gather routines layers cap).length then .error (.overCap (gather routines layers cap).length cap)
      else .ok (gather routines layers cap) := by
  have same : (gather routines layers cap).length = (chosen (gather routines layers cap)).length := by
    rw [chosen, eraseDups_of_nodup (gather_distinct routines layers cap), List.length_map]
  rw [select, if_neg (not_not_intro same)]

end FlowAtlas.Selection

namespace FlowAtlas

open Selection

theorem select_ok {cap : Int} (nonneg : 0 ≤ cap) (routines : List Routine) (layers : Table (List String)) :
    select routines layers cap = .ok (gather routines layers cap) := by
  rw [select_eq, if_neg (not_lt.mpr (gather_length nonneg routines layers))]

end FlowAtlas
