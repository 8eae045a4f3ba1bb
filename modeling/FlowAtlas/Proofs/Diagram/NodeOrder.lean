import FlowAtlas.Proofs.Diagram.Flow
import Mathlib.Data.List.Perm.Basic
import Mathlib.Data.List.Shortlex
import Mathlib.Data.List.Sort

/-! Ids of nodes, shorter ones first and those of one length by their letters, stand in the order of drawing. -/

namespace FlowAtlas

namespace Text

theorem before_iff_lex (first second : List Char) : before first second = true ↔ List.Lex (· < ·) first second := by
  induction first, second using before.induct with
  | case1 => simp [before]
  | case2 => simp [before]
  | case3 c s d t ih =>
      rw [before, Bool.or_eq_true, Bool.and_eq_true, decide_eq_true_eq, beq_iff_eq, ih, List.cons_lex_cons_iff]
      exact Iff.rfl

section append

variable {α : Type} {r : α → α → Prop} {first second : List α}

theorem lex_append (ahead : List.Lex r first second) (even : first.length = second.length) (more rest : List α) :
    List.Lex r (first ++ more) (second ++ rest) := by
  induction ahead with
  | nil => cases even
  | rel less => exact List.Lex.rel less
  | cons _ ih => exact List.Lex.cons (ih (Nat.succ.inj even))

theorem shortlex_concat (ahead : List.Shortlex r first second) (c d : α) :
    List.Shortlex r (first ++ [c]) (second ++ [d]) := by
  rw [List.shortlex_def, List.length_append, List.length_append, List.length_singleton, List.length_singleton]
  rcases List.shortlex_def.mp ahead with shorter | ⟨even, letters⟩
  · left
    omega
  · right
    exact ⟨by omega, lex_append letters even _ _⟩

end append

end Text

namespace Diagram

theorem idBefore_iff_shortlex (first second : String) :
    idBefore first second = true ↔ List.Shortlex (· < ·) first.toList second.toList := by
  rw [idBefore, Bool.or_eq_true, Bool.and_eq_true, decide_eq_true_eq, beq_iff_eq, Text.before_iff_lex,
    List.shortlex_def, String.length_toList, String.length_toList]

theorem letters_succ (count : Nat) : (lettersReversed (count + 1)).reverse =
    (lettersReversed (count / 26)).reverse ++ [Char.ofNat (65 + count % 26)] := by
  rw [lettersReversed, if_neg (Nat.succ_ne_zero count), List.reverse_cons, Nat.add_sub_cancel]

theorem shortlex_letters {fewer count : Nat} (less : fewer < count) :
    List.Shortlex (· < ·) (lettersReversed fewer).reverse (lettersReversed count).reverse := by
  -- A greater count has more letters, or as many that come later, by induction on what stands in front of the last
  -- letter.
  induction count using Nat.strongRecOn generalizing fewer with
  | ind count ih =>
      obtain ⟨more, rfl⟩ := Nat.exists_eq_succ_of_ne_zero (Nat.ne_zero_of_lt less)
      rw [letters_succ]
      cases fewer with
      | zero =>
          have none : lettersReversed 0 = [] := by rw [lettersReversed, if_pos rfl]
          apply List.Shortlex.of_length_lt
          rw [none, List.length_append, List.length_singleton]
          exact Nat.succ_pos _
      | succ fewer =>
          rw [letters_succ]
          have fronts : fewer / 26 ≤ more / 26 := Nat.div_le_div_right (by omega)
          rcases Nat.lt_or_eq_of_le fronts with front | front
          · exact Text.shortlex_concat (ih (more / 26) (by omega) front) _ _
          · rw [front]
            apply List.Shortlex.append_left
            rw [List.shortlex_singleton_iff]
            change (Char.ofNat (65 + fewer % 26)).toNat < (Char.ofNat (65 + more % 26)).toNat
            rw [toNat_letter, toNat_letter]
            omega

theorem nodeId_toList (place : Nat) : (nodeId place).toList = (lettersReversed (place + 1)).reverse :=
  String.toList_ofList

theorem shortlex_nodeId (first second : Nat) :
    List.Shortlex (· < ·) (nodeId first).toList (nodeId second).toList ↔ first < second := by
  have forward : ∀ {first second : Nat}, first < second →
      List.Shortlex (· < ·) (nodeId first).toList (nodeId second).toList := by
    intro first second less
    rw [nodeId_toList, nodeId_toList]
    exact shortlex_letters (Nat.succ_lt_succ less)
  constructor
  · intro ahead
    rcases Nat.lt_trichotomy first second with less | same | greater
    · exact less
    · rw [same] at ahead
      exact absurd ahead (irrefl _)
    · exact absurd ahead (asymm (forward greater))
  · exact forward

theorem idBefore_nodeId (first second : Nat) : idBefore (nodeId first) (nodeId second) = true ↔ first < second := by
  rw [idBefore_iff_shortlex, shortlex_nodeId]

theorem insertId_perm (id : String) (ids : List String) : (insertId id ids).Perm (id :: ids) := by
  induction ids with
  | nil => exact .refl _
  | cons next rest ih =>
      rw [insertId]
      split
      · exact (ih.cons next).trans (.swap id next rest)
      · exact .refl _

theorem sortIds_perm (ids : List String) : (sortIds ids).Perm ids := by
  induction ids with
  | nil => exact .refl _
  | cons id rest ih => exact (insertId_perm id (sortIds rest)).trans (ih.cons id)

theorem insertId_map (place : Nat) (places : List Nat) :
    insertId (nodeId place) (places.map nodeId) = (places.orderedInsert (· ≤ ·) place).map nodeId := by
  induction places with
  | nil => rfl
  | cons next rest ih =>
      rw [List.map_cons, insertId, List.orderedInsert_cons]
      by_cases ahead : next < place
      · rw [if_pos ((idBefore_nodeId next place).mpr ahead), if_neg (Nat.not_le_of_lt ahead), ih, List.map_cons]
      · rw [if_neg (mt (idBefore_nodeId next place).mp ahead), if_pos (Nat.le_of_not_lt ahead), List.map_cons,
          List.map_cons]

theorem sortIds_map (places : List Nat) :
    sortIds (places.map nodeId) = (places.insertionSort (· ≤ ·)).map nodeId := by
  induction places with
  | nil => rfl
  | cons place rest ih =>
      calc sortIds ((place :: rest).map nodeId)
          = insertId (nodeId place) (sortIds (rest.map nodeId)) := rfl
        _ = insertId (nodeId place) ((rest.insertionSort (· ≤ ·)).map nodeId) := by rw [ih]
        _ = ((place :: rest).insertionSort (· ≤ ·)).map nodeId := insertId_map _ _

/-- Sorting ids brings the nodes back into the order in which they were drawn. -/
theorem sortIds_eq {ids : List String} {places : List Nat} (same : ids.Perm (places.map nodeId))
    (ordered : places.Pairwise (· < ·)) : sortIds ids = places.map nodeId := by
  obtain ⟨given, rfl, perm⟩ : Relation.Comp (· = List.map nodeId ·) List.Perm ids places := by
    rw [List.eq_map_comp_perm]
    exact same
  have sorted : given.insertionSort (· ≤ ·) = places := by
    apply List.Perm.eq_of_pairwise' (r := (· ≤ ·)) (List.pairwise_insertionSort _ _) (ordered.imp Nat.le_of_lt)
    exact (List.perm_insertionSort _ _).trans perm
  rw [sortIds_map, sorted]

end Diagram

end FlowAtlas
