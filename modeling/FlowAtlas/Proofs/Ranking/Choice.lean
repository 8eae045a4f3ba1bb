import FlowAtlas.Proofs.Ranking.Cap
import FlowAtlas.Proofs.Ranking.Phases

namespace FlowAtlas.Selection

theorem take_of_fresh {selected : List Routine} {routine : Routine} (fresh : has selected routine.id = false) :
    take selected routine = selected ++ [routine] := by
  rw [take, fresh]
  rfl

theorem has_iff {selected : List Routine} {id : String} :
    has selected id = true ↔ ∃ routine ∈ selected, routine.id = id := by
  simp [has]

section ids

/-! Routines of a list are told apart by their ids. -/

variable {routines : List Routine} (distinct : (routines.map (·.id)).Nodup)

include distinct

theorem has_iff_mem {selected : List Routine} (known : selected ⊆ routines) {routine : Routine}
    (member : routine ∈ routines) : has selected routine.id = true ↔ routine ∈ selected := by
  rw [has_iff]
  constructor
  · rintro ⟨other, chosen, same⟩
    rwa [← List.inj_on_of_nodup_map distinct (known chosen) member same]
  · exact fun chosen => ⟨routine, chosen, rfl⟩

theorem take_eq {selected : List Routine} (known : selected ⊆ routines) {routine : Routine}
    (member : routine ∈ routines) :
    take selected routine = if routine ∈ selected then selected else selected ++ [routine] := by
  by_cases chosen : routine ∈ selected
  · rw [if_pos chosen, take, if_pos ((has_iff_mem distinct known member).mpr chosen)]
  · rw [if_neg chosen]
    apply take_of_fresh
    rw [Bool.eq_false_iff]
    exact mt (has_iff_mem distinct known member).mp chosen

theorem foldl_take_eq (rest : List Routine) : ∀ selected, (selected ++ rest).Nodup → selected ++ rest ⊆ routines →
    rest.foldl take selected = selected ++ rest := by
  induction rest with
  | nil => simp
  | cons routine rest ih =>
      intro selected once known
      have apart : routine ∉ selected := by
        intro chosen
        exact (List.nodup_append.mp once).2.2 routine chosen routine List.mem_cons_self rfl
      have taken : take selected routine = selected ++ [routine] := by
        rw [take_eq distinct (fun _ chosen => known (List.mem_append_left _ chosen)) (known (by simp)), if_neg apart]
      rw [List.append_cons] at once known ⊢
      rw [List.foldl_cons, taken]
      exact ih _ once known

theorem byId_eq_some_iff {id : String} {routine : Routine} :
    byId? routines id = some routine ↔ routine ∈ routines ∧ routine.id = id := by
  constructor
  · intro found
    have same := List.find?_some found
    exact ⟨List.mem_reverse.mp (List.mem_of_find?_eq_some found), by simpa using same⟩
  · rintro ⟨member, rfl⟩
    cases found : byId? routines routine.id with
    | none =>
        have unfit := List.find?_eq_none.mp found routine (List.mem_reverse.mpr member)
        simp at unfit
    | some other =>
        have same := List.find?_some found
        have held := List.mem_reverse.mp (List.mem_of_find?_eq_some found)
        rw [List.inj_on_of_nodup_map distinct held member (by simpa using same)]

theorem rankOf_append {front back : List Routine} {routine : Routine} (ranking : routines = front ++ routine :: back) :
    rankOf routines routine.id = front.length + 1 := by
  have behind : ∀ other ∈ back.reverse, (other.id == routine.id) = false := by
    intro other member
    rw [ranking, List.map_append, List.map_cons] at distinct
    have apart := (List.nodup_cons.mp (List.nodup_append.mp distinct).2.1).1
    rw [beq_eq_false_iff_ne]
    intro same
    rw [← same] at apart
    exact apart (List.mem_map_of_mem (List.mem_reverse.mp member))
  have place : routines.reverse.findIdx (fun other => other.id == routine.id) = back.length := by
    rw [ranking, List.reverse_append, List.reverse_cons, List.append_assoc, List.findIdx_append,
      List.findIdx_eq_length_of_false behind, if_neg (Nat.lt_irrefl _)]
    simp [List.findIdx_cons]
  rw [rankOf, place, ranking, List.length_append, List.length_cons]
  omega

end ids

theorem best_none_iff (ranked known : List Routine) : best? ranked known = none ↔ known = [] := by
  cases known with
  | nil => simp [best?]
  | cons routine rest =>
      rw [best?]
      split
      · simp
      · split <;> simp

theorem best_some {ranked known : List Routine} {routine : Routine} (best : best? ranked known = some routine) :
    routine ∈ known ∧ ∀ other ∈ known, rankOf ranked routine.id ≤ rankOf ranked other.id := by
  induction known generalizing routine with
  | nil => cases best
  | cons first rest ih =>
      rw [best?] at best
      split at best
      · rename_i none
        rw [(best_none_iff ranked rest).mp none, ← Option.some.inj best]
        simp
      · rename_i other later
        obtain ⟨member, lowest⟩ := ih later
        split at best
        · rename_i lower
          rw [← Option.some.inj best]
          refine ⟨List.mem_cons_self, ?_⟩
          intro third held
          rcases List.mem_cons.mp held with rfl | held
          · exact Nat.le_refl _
          · exact Nat.le_trans lower (lowest third held)
        · rename_i lower
          rw [← Option.some.inj best]
          refine ⟨List.mem_cons_of_mem _ member, ?_⟩
          intro third held
          rcases List.mem_cons.mp held with rfl | held
          · omega
          · exact lowest third held

section phases

variable {routines ranked : List Routine} (distinct : (routines.map (·.id)).Nodup)
  (ranks : Ranking.Ranks routines ranked)

def openMembers (routines selected : List Routine) (memberIds : List String) : List Routine :=
  memberIds.filterMap fun id => if has selected id then none else byId? routines id

include distinct

theorem mem_openMembers {selected : List Routine} (known : selected ⊆ routines) {memberIds : List String}
    {routine : Routine} :
    routine ∈ openMembers routines selected memberIds ↔
      routine ∈ routines ∧ routine ∉ selected ∧ routine.id ∈ memberIds := by
  rw [openMembers, List.mem_filterMap]
  constructor
  · rintro ⟨id, listed, found⟩
    split at found
    · cases found
    · rename_i fresh
      obtain ⟨member, rfl⟩ := (byId_eq_some_iff distinct).mp found
      exact ⟨member, mt (has_iff_mem distinct known member).mpr fresh, listed⟩
  · rintro ⟨member, fresh, listed⟩
    refine ⟨routine.id, listed, ?_⟩
    rw [if_neg (mt (has_iff_mem distinct known member).mp fresh)]
    exact (byId_eq_some_iff distinct).mpr ⟨member, rfl⟩

theorem fill_eq {limit : Nat} (rest : List Routine) : ∀ {selected : List Routine}, rest.Nodup → rest ⊆ routines →
    selected ⊆ routines → fill limit rest selected =
      selected ++ (rest.filter fun routine => routine ∉ selected).take (limit - selected.length) := by
  induction rest with
  | nil => simp [fill]
  | cons routine rest ih =>
      intro selected once listed known
      obtain ⟨apart, once⟩ := List.nodup_cons.mp once
      have member : routine ∈ routines := listed List.mem_cons_self
      have others : rest ⊆ routines := fun _ held => listed (List.mem_cons_of_mem _ held)
      rw [fill]
      by_cases full : limit ≤ selected.length
      · rw [if_pos (by exact_mod_cast full), Nat.sub_eq_zero_of_le full, List.take_zero, List.append_nil]
      · rw [if_neg (by exact_mod_cast full), take_eq distinct known member]
        by_cases chosen : routine ∈ selected
        · rw [if_pos chosen, ih once others known]
          simp [chosen]
        · have grown : selected ++ [routine] ⊆ routines :=
            List.append_subset.mpr ⟨known, List.cons_subset.mpr ⟨member, List.nil_subset _⟩⟩
          have left : rest.filter (fun other => other ∉ selected ++ [routine]) =
              rest.filter fun other => other ∉ selected := by
            refine List.filter_congr fun other held => ?_
            have different : other ≠ routine := fun same => apart (same ▸ held)
            simp [different]
          have less : limit - selected.length = limit - (selected.length + 1) + 1 := by omega
          rw [if_neg chosen, ih once others grown, left, List.length_append, List.length_singleton, List.filter_cons,
            if_pos (by simpa using chosen), less, List.take_succ_cons, List.append_assoc]
          rfl

include ranks

theorem ranked_distinct : (ranked.map (·.id)).Nodup := (ranks.perm.map _).nodup_iff.mpr distinct

theorem best_openMembers {selected : List Routine} (known : selected ⊆ routines) (memberIds : List String) :
    best? ranked (openMembers routines selected memberIds) = candidate? ranked selected memberIds := by
  cases found : candidate? ranked selected memberIds with
  | none =>
      rw [best_none_iff, List.eq_nil_iff_forall_not_mem]
      intro routine member
      obtain ⟨held, fresh, listed⟩ := (mem_openMembers distinct known).mp member
      exact fresh (candidate_none found routine (ranks.perm.mem_iff.mpr held) listed)
  | some routine =>
      obtain ⟨fits, front, back, ranking, before⟩ := List.find?_eq_some_iff_append.mp found
      obtain ⟨held, fresh, listed⟩ := candidate_mem found
      have among : routine ∈ openMembers routines selected memberIds :=
        (mem_openMembers distinct known).mpr ⟨ranks.perm.mem_iff.mp held, fresh, listed⟩
      cases best : best? ranked (openMembers routines selected memberIds) with
      | none =>
          rw [(best_none_iff _ _).mp best] at among
          cases among
      | some other =>
          obtain ⟨inside, lowest⟩ := best_some best
          obtain ⟨otherHeld, otherFresh, otherListed⟩ := (mem_openMembers distinct known).mp inside
          have once := ranked_distinct distinct ranks
          obtain ⟨ahead, behind, split⟩ := List.append_of_mem (ranks.perm.mem_iff.mpr otherHeld)
          -- The best one stands no later than the candidate, and nothing in front of the candidate is a member.
          have early := lowest routine among
          rw [rankOf_append once split, rankOf_append once ranking] at early
          have outside : other ∉ front := by
            intro member
            have unfit := before other member
            simp [otherFresh, otherListed] at unfit
          have place : ahead.length = front.length := by
            by_contra apart
            have less : ahead.length < front.length := by omega
            have here : ranked[ahead.length]? = some other := by simp [split]
            rw [ranking, List.getElem?_append_left less] at here
            exact outside (List.mem_of_getElem? here)
          have lists := split.symm.trans ranking
          have parts := List.append_inj lists place
          rw [(List.cons.inj parts.2).1]

theorem backfill_eq {cap : Nat} (layers : Table (List String)) : ∀ {selected : List Routine} {covered : List String},
    selected ⊆ routines → (∀ label, label ∈ covered ↔ Shown selected label) →
      backfill routines ranked cap layers selected covered = serve ranked cap layers selected := by
  induction layers with
  | nil => exact fun _ _ => rfl
  | cons layer layers ih =>
      intro selected covered known shown
      obtain ⟨label, memberIds⟩ := layer
      rw [backfill]
      by_cases full : cap ≤ selected.length
      · rw [if_pos (by exact_mod_cast full), serve_full _ full]
      · rw [if_neg (by exact_mod_cast full), serve, added?]
        by_cases carried : Shown selected label
        · have closed : ¬ (selected.length < cap ∧ ¬ Shown selected label) := fun room => room.2 carried
          rw [if_pos (by simpa using (shown label).mpr carried), if_neg closed, Option.toList_none, List.append_nil]
          exact ih known shown
        · have room : selected.length < cap ∧ ¬ Shown selected label := ⟨by omega, carried⟩
          have uncovered : ¬ covered.contains label = true := by simpa [shown label] using carried
          have best := best_openMembers distinct ranks known memberIds
          rw [openMembers] at best
          rw [if_neg uncovered, if_pos room]
          dsimp only
          rw [best]
          cases found : candidate? ranked selected memberIds with
          | none => simpa using ih known shown
          | some routine =>
              obtain ⟨held, fresh, _⟩ := candidate_mem found
              have member := ranks.perm.mem_iff.mp held
              have taken : take selected routine = selected ++ [routine] := by
                rw [take_eq distinct known member, if_neg fresh]
              dsimp only
              rw [taken, Option.toList_some]
              apply ih
              · exact List.append_subset.mpr ⟨known, List.cons_subset.mpr ⟨member, List.nil_subset _⟩⟩
              · intro other
                rw [shown_append, List.mem_append, shown other]
                simp [Shown]

end phases

/-- Of routines with different ids the selection takes those of the phases. -/
theorem select_eq_phases {routines : List Routine} (distinct : (routines.map (·.id)).Nodup)
    (layers : Table (List String)) (cap : Nat) :
    select routines layers cap = .ok (phases (Ranking.rank routines) layers cap) := by
  let ranked := Ranking.rank routines
  have ranks : Ranking.Ranks routines ranked := Ranking.rank_ranks routines
  have once : ranked.Nodup := (ranked_distinct distinct ranks).of_map _
  have known : ranked ⊆ routines := ranks.perm.subset
  have counted : takeCount (min primaryCount cap) ranked = top ranked cap := by
    have places : min primaryCount (cap : Int) = (min 8 cap : Nat) := by
      rw [primaryCount]
      omega
    rw [takeCount, places, if_pos (by omega), Int.toNat_natCast, top]
  have primary : (takeCount (min primaryCount cap) ranked).foldl take [] = top ranked cap := by
    rw [counted]
    exact foldl_take_eq distinct _ [] (top_nodup once cap) fun _ member => known (top_subset ranked cap member)
  have filled : backfill routines ranked cap layers (top ranked cap) ((top ranked cap).flatMap (·.layers)) =
      served ranked layers cap := by
    apply backfill_eq distinct ranks
    · exact fun _ member => known (top_subset ranked cap member)
    · intro label
      exact List.mem_flatMap
  have limit : min (cap : Int) ranked.length = (min cap ranked.length : Nat) := by omega
  have kept : fill (min cap ranked.length : Nat) ranked (served ranked layers cap) = phases ranked layers cap :=
    fill_eq distinct ranked once known fun _ member => known ((served_distinct once layers cap).2 member)
  have gathered : gather routines layers cap = phases ranked layers cap := by
    rw [gather, primary, filled, limit, kept]
  rw [select_ok (Int.natCast_nonneg cap), gathered]

end FlowAtlas.Selection

namespace FlowAtlas

open Selection

/-- A smaller cap selects the beginning of what a larger one selects. -/
theorem select_take {routines : List Routine} (distinct : (routines.map (·.id)).Nodup)
    (layers : Table (List String)) {less more : Nat} (order : less ≤ more) :
    ∃ selected, select routines layers more = .ok selected ∧
      select routines layers less = .ok (selected.take less) := by
  have once : (Ranking.rank routines).Nodup := (ranked_distinct distinct (Ranking.rank_ranks routines)).of_map _
  refine ⟨_, select_eq_phases distinct layers more, ?_⟩
  rw [phases_take once layers order]
  exact select_eq_phases distinct layers less

theorem select_take_midway :
    let plain (id : String) (importance : Int) (layers : List String) : Routine :=
      { id, name := id, file := "f", line := 1, importance, layers }
    let routines := plain "z" 0 ["Models"] :: plain "y" 1 ["Services", "Controllers"] ::
      ["a", "b", "c", "d", "e", "f", "g", "h", "i"].map fun id => plain id 5 ["Utilities"]
    let layers := [("Controllers", ["y"]), ("Services", ["y", "gone"]), ("Models", ["z"]), ("Utilities", ["a", "i"])]
    (routines.map (·.id)).Nodup ∧ 9 ≤ 11 ∧ ∃ selected, select routines layers 11 = .ok selected ∧
      select routines layers 9 = .ok (selected.take 9) := by
  intro plain routines layers
  have distinct : (routines.map (·.id)).Nodup := by decide
  exact ⟨distinct, by decide, select_take distinct layers (by decide)⟩

end FlowAtlas
