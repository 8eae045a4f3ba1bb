import FlowAtlas.Proofs.Ranking.Order
import FlowAtlas.Table
import Mathlib.Data.List.Infix
import Mathlib.Data.List.Nodup
import Mathlib.Data.List.Perm.Subperm

/-! A selection as three phases over a ranking: the top, one routine for each layer that is not shown, the rest. A
larger cap only adds routines at the end. -/

namespace FlowAtlas.Selection

def Shown (routines : List Routine) (label : String) : Prop := ∃ routine ∈ routines, label ∈ routine.layers

instance (routines : List Routine) (label : String) : Decidable (Shown routines label) :=
  inferInstanceAs (Decidable (∃ routine ∈ routines, _))

def candidate? (ranked chosen : List Routine) (memberIds : List String) : Option Routine :=
  ranked.find? fun routine => routine ∉ chosen ∧ routine.id ∈ memberIds

/-- While fewer than `cap` are chosen, a layer whose label is not shown adds its candidate. -/
def added? (ranked : List Routine) (cap : Nat) (chosen : List Routine) (layer : String × List String) : Option Routine :=
  if chosen.length < cap ∧ ¬ Shown chosen layer.1 then candidate? ranked chosen layer.2 else none

def serve (ranked : List Routine) (cap : Nat) : Table (List String) → List Routine → List Routine
  | [], chosen => chosen
  | layer :: layers, chosen => serve ranked cap layers (chosen ++ (added? ranked cap chosen layer).toList)

def top (ranked : List Routine) (cap : Nat) : List Routine := ranked.take (min 8 cap)

/-- The top and what layers add to it. -/
def served (ranked : List Routine) (layers : Table (List String)) (cap : Nat) : List Routine :=
  serve ranked cap layers (top ranked cap)

/-- The routines of a selection: those served, then the others in the order of the ranking. -/
def phases (ranked : List Routine) (layers : Table (List String)) (cap : Nat) : List Routine :=
  let chosen := served ranked layers cap
  chosen ++ (ranked.filter fun routine => routine ∉ chosen).take (min cap ranked.length - chosen.length)

theorem shown_append (first second : List Routine) (label : String) :
    Shown (first ++ second) label ↔ Shown first label ∨ Shown second label := by
  simp only [Shown, List.mem_append, or_and_right, exists_or]

section serve

variable {ranked chosen : List Routine} {cap : Nat}

theorem candidate_mem {memberIds : List String} {routine : Routine}
    (found : candidate? ranked chosen memberIds = some routine) :
    routine ∈ ranked ∧ routine ∉ chosen ∧ routine.id ∈ memberIds := by
  have fits := List.find?_some found
  rw [decide_eq_true_eq] at fits
  exact ⟨List.mem_of_find?_eq_some found, fits⟩

theorem candidate_none {memberIds : List String} (none : candidate? ranked chosen memberIds = none) :
    ∀ routine ∈ ranked, routine.id ∈ memberIds → routine ∈ chosen := by
  intro routine member listed
  have unfit := List.find?_eq_none.mp none routine member
  by_contra fresh
  exact unfit (decide_eq_true ⟨fresh, listed⟩)

theorem added_some {layer : String × List String} {routine : Routine}
    (added : added? ranked cap chosen layer = some routine) :
    chosen.length < cap ∧ ¬ Shown chosen layer.1 ∧ candidate? ranked chosen layer.2 = some routine := by
  rw [added?] at added
  split at added
  · rename_i room
    exact ⟨room.1, room.2, added⟩
  · cases added

theorem added_of_full {layer : String × List String} (full : cap ≤ chosen.length) :
    added? ranked cap chosen layer = none :=
  if_neg fun room => Nat.not_lt.mpr full room.1

theorem added_distinct {layer : String × List String} {routine : Routine}
    (added : added? ranked cap chosen layer = some routine) (distinct : chosen.Nodup) (within : chosen ⊆ ranked) :
    (chosen ++ [routine]).Nodup ∧ chosen ++ [routine] ⊆ ranked := by
  obtain ⟨held, fresh, _⟩ := candidate_mem (added_some added).2.2
  constructor
  · refine List.nodup_append.mpr ⟨distinct, by simp, ?_⟩
    intro first member second single same
    rw [List.mem_singleton.mp single] at same
    exact fresh (same ▸ member)
  · exact List.append_subset.mpr ⟨within, List.cons_subset.mpr ⟨held, List.nil_subset _⟩⟩

theorem serve_starts (ranked : List Routine) (cap : Nat) (layers : Table (List String)) :
    ∀ chosen, chosen <+: serve ranked cap layers chosen := by
  induction layers with
  | nil => exact fun chosen => List.prefix_refl chosen
  | cons layer layers ih => exact fun chosen => (List.prefix_append chosen _).trans (ih _)

theorem serve_full (layers : Table (List String)) : ∀ {chosen : List Routine}, cap ≤ chosen.length →
    serve ranked cap layers chosen = chosen := by
  induction layers with
  | nil => exact fun _ => rfl
  | cons layer layers ih =>
      intro chosen full
      rw [serve, added_of_full full, Option.toList_none, List.append_nil]
      exact ih full

theorem serve_length (layers : Table (List String)) : ∀ {chosen : List Routine}, chosen.length ≤ cap →
    (serve ranked cap layers chosen).length ≤ cap := by
  induction layers with
  | nil => exact fun within => within
  | cons layer layers ih =>
      intro chosen within
      rw [serve]
      apply ih
      cases added : added? ranked cap chosen layer with
      | none => simpa using within
      | some routine =>
          have room := (added_some added).1
          rw [List.length_append, Option.toList_some, List.length_singleton]
          omega

theorem serve_distinct (layers : Table (List String)) : ∀ {chosen : List Routine}, chosen.Nodup → chosen ⊆ ranked →
    (serve ranked cap layers chosen).Nodup ∧ serve ranked cap layers chosen ⊆ ranked := by
  induction layers with
  | nil => exact fun distinct within => ⟨distinct, within⟩
  | cons layer layers ih =>
      intro chosen distinct within
      rw [serve]
      cases added : added? ranked cap chosen layer with
      | none => simpa using ih distinct within
      | some routine =>
          obtain ⟨once, inside⟩ := added_distinct added distinct within
          exact ih once inside

theorem serve_take {less more : Nat} (order : less ≤ more) (layers : Table (List String)) :
    ∀ {chosen : List Routine}, chosen.length ≤ less →
      serve ranked less layers chosen = (serve ranked more layers chosen).take less := by
  induction layers with
  | nil =>
      intro chosen within
      exact (List.take_of_length_le within).symm
  | cons layer layers ih =>
      intro chosen within
      by_cases room : chosen.length < less
      · have wide : chosen.length < more := Nat.lt_of_lt_of_le room order
        have same : added? ranked less chosen layer = added? ranked more chosen layer := by
          simp only [added?, room, wide, true_and]
        have single := Option.length_toList_le (o := added? ranked more chosen layer)
        rw [serve, serve, same]
        apply ih
        rw [List.length_append]
        omega
      · have full : chosen.length = less := by omega
        have same : (serve ranked more (layer :: layers) chosen).take chosen.length = chosen :=
          (List.prefix_iff_eq_take.mp (serve_starts ranked more _ chosen)).symm
        rw [serve_full _ (Nat.le_of_eq full.symm), ← full, same]

end serve

section phases

variable {ranked : List Routine} (distinct : ranked.Nodup) (layers : Table (List String)) (cap : Nat)

theorem top_length (ranked : List Routine) (cap : Nat) : (top ranked cap).length = min (min 8 cap) ranked.length :=
  List.length_take

theorem top_subset (ranked : List Routine) (cap : Nat) : top ranked cap ⊆ ranked := List.take_subset _ _

theorem served_length_le (ranked : List Routine) (layers : Table (List String)) (cap : Nat) :
    (served ranked layers cap).length ≤ cap := by
  apply serve_length
  rw [top_length]
  omega

include distinct

theorem top_nodup : (top ranked cap).Nodup := distinct.sublist (List.take_sublist _ _)

theorem served_distinct : (served ranked layers cap).Nodup ∧ served ranked layers cap ⊆ ranked :=
  serve_distinct layers (top_nodup distinct cap) (top_subset ranked cap)

theorem served_perm :
    (served ranked layers cap ++ ranked.filter fun routine => routine ∉ served ranked layers cap).Perm ranked := by
  obtain ⟨once, known⟩ := served_distinct distinct layers cap
  refine (List.perm_ext_iff_of_nodup ?_ distinct).mpr ?_
  · refine List.nodup_append.mpr ⟨once, distinct.filter _, ?_⟩
    intro first chosen second other same
    have apart : second ∉ served ranked layers cap := by simpa using (List.mem_filter.mp other).2
    exact apart (same ▸ chosen)
  · intro routine
    by_cases chosen : routine ∈ served ranked layers cap
    · simp [chosen, known chosen]
    · simp [chosen]

theorem served_others_length :
    (served ranked layers cap).length +
      (ranked.filter fun routine => routine ∉ served ranked layers cap).length = ranked.length := by
  rw [← List.length_append, (served_perm distinct layers cap).length_eq]

theorem phases_length : (phases ranked layers cap).length = min cap ranked.length := by
  have parts := served_others_length distinct layers cap
  have within := served_length_le ranked layers cap
  simp only [phases, List.length_append, List.length_take]
  omega

theorem phases_subperm : (phases ranked layers cap).Subperm ranked := by
  have front : (phases ranked layers cap).Sublist
      (served ranked layers cap ++ ranked.filter fun routine => routine ∉ served ranked layers cap) :=
    (List.take_sublist _ _).append_left _
  exact front.subperm.trans (served_perm distinct layers cap).subperm

theorem phases_small (small : cap ≤ 8) : phases ranked layers cap = ranked.take cap := by
  have start : ranked.take cap <+: phases ranked layers cap := by
    have first : top ranked cap <+: phases ranked layers cap :=
      (serve_starts ranked _ layers _).trans (List.prefix_append _ _)
    rwa [top, Nat.min_eq_right small] at first
  have same : (ranked.take cap).length = (phases ranked layers cap).length := by
    rw [phases_length distinct, List.length_take]
  exact (start.eq_of_length same).symm

/-- A selection with a smaller cap is the beginning of one with a larger cap. -/
theorem phases_take {less more : Nat} (order : less ≤ more) :
    (phases ranked layers more).take less = phases ranked layers less := by
  by_cases small : less ≤ 8
  · have start : top ranked more <+: phases ranked layers more :=
      (serve_starts ranked _ layers _).trans (List.prefix_append _ _)
    have first : ranked.take less <+: (phases ranked layers more).take less := by
      have cut := start.take less
      rwa [top, List.take_take, Nat.min_eq_left (by omega)] at cut
    have same : (ranked.take less).length = ((phases ranked layers more).take less).length := by
      rw [List.length_take, List.length_take, phases_length distinct]
      omega
    rw [phases_small distinct layers less small]
    exact (first.eq_of_length same).symm
  · have tops : top ranked less = top ranked more := by
      rw [top, top, Nat.min_eq_left (by omega), Nat.min_eq_left (by omega)]
    have begun : (top ranked more).length ≤ less := by
      rw [top_length]
      omega
    have fronts : served ranked layers less = (served ranked layers more).take less := by
      rw [served, served, tops]
      exact serve_take order layers begun
    by_cases fits : (served ranked layers more).length ≤ less
    · -- All layers are served below the smaller cap, which only cuts what is left.
      rw [List.take_of_length_le fits] at fronts
      simp only [phases, fronts, List.take_append, List.take_of_length_le fits, List.take_take]
      congr 2
      omega
    · have full : (served ranked layers less).length = less := by
        rw [fronts, List.length_take]
        omega
      have bare : phases ranked layers less = served ranked layers less := by
        have spent : min less ranked.length - (served ranked layers less).length = 0 := by omega
        simp only [phases, spent, List.take_zero, List.append_nil]
      rw [bare, fronts, phases, List.take_append_of_le_length (by omega)]

end phases

end FlowAtlas.Selection
