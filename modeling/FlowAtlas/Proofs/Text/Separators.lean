import FlowAtlas.Text.Pieces
import Mathlib.Data.List.Basic

/-! Texts that are told apart by what separates their parts. -/

namespace FlowAtlas.Text

theorem run_inj {α : Type} (kind : α → Bool) {first second rest more : List α} {stop halt : α}
    (ofKind : ∀ item ∈ first, kind item = true) (alike : ∀ item ∈ second, kind item = true)
    (stops : kind stop = false) (halts : kind halt = false)
    (same : first ++ stop :: rest = second ++ halt :: more) : first = second ∧ stop = halt ∧ rest = more := by
  have runs := congrArg (List.takeWhile kind) same
  rw [List.takeWhile_append_of_pos ofKind, List.takeWhile_append_of_pos alike,
    List.takeWhile_cons_of_neg (by simp [stops]), List.takeWhile_cons_of_neg (by simp [halts]), List.append_nil,
    List.append_nil] at runs
  rw [runs] at same
  exact ⟨runs, List.cons.inj (List.append_cancel_left same)⟩

theorem cut_inj {α : Type} [DecidableEq α] {mark : α} {first second rest more : List α} (free : mark ∉ first)
    (clean : mark ∉ second) (same : first ++ mark :: rest = second ++ mark :: more) : first = second ∧ rest = more := by
  have apart : ∀ items : List α, mark ∉ items → ∀ item ∈ items, (item != mark) = true := by
    intro items without item member
    apply bne_iff_ne.mpr
    intro equal
    exact without (equal ▸ member)
  obtain ⟨front, -, back⟩ := run_inj (fun item => item != mark) (apart first free) (apart second clean)
    (bne_self_eq_false mark) (bne_self_eq_false mark) same
  exact ⟨front, back⟩

theorem intercalate_injective {separator : String} {mark : Char} (single : separator.toList = [mark])
    {first second : List String} (given : first ≠ []) (more : second ≠ [])
    (plain : ∀ part ∈ first, mark ∉ part.toList) (free : ∀ part ∈ second, mark ∉ part.toList)
    (same : separator.intercalate first = separator.intercalate second) : first = second := by
  have chars := congrArg String.toList same
  rw [String.toList_intercalate, String.toList_intercalate, single] at chars
  have split := congrArg (List.splitOn mark) chars
  rw [List.splitOn_intercalate mark (by simpa using plain) (by simpa using given),
    List.splitOn_intercalate mark (by simpa using free) (by simpa using more)] at split
  exact List.map_injective_iff.mpr (fun _ _ => String.toList_inj.mp) split

theorem mem_intercalate {α : Type} {separator : List α} {item : α} {parts : List (List α)}
    (member : item ∈ separator.intercalate parts) : item ∈ separator ∨ ∃ part ∈ parts, item ∈ part := by
  induction parts with
  | nil => cases member
  | cons part rest ih =>
      cases rest with
      | nil =>
          rw [List.intercalate_singleton] at member
          exact Or.inr ⟨part, List.mem_singleton_self _, member⟩
      | cons next others =>
          rw [List.intercalate_cons_cons, List.mem_append, List.mem_append] at member
          rcases member with (here | between) | behind
          · exact Or.inr ⟨part, List.mem_cons_self, here⟩
          · exact Or.inl between
          · refine (ih behind).imp_right ?_
            rintro ⟨other, listed, held⟩
            exact ⟨other, List.mem_cons_of_mem _ listed, held⟩

section without

def Without (mark : Char) (text : String) : Prop := mark ∉ text.toList

instance (mark : Char) (text : String) : Decidable (Without mark text) := inferInstanceAs (Decidable (mark ∉ text.toList))

variable {mark : Char} {first second separator : String}

@[simp] theorem without_append : Without mark (first ++ second) ↔ Without mark first ∧ Without mark second := by
  simp [Without]

@[simp] theorem without_toString : Without mark (toString first) ↔ Without mark first := Iff.rfl

theorem without_literal {chars : List Char} (clean : (chars.all fun c => c != mark) = true) :
    Without mark (String.ofList chars) := by
  rw [Without, String.toList_ofList]
  intro member
  exact absurd (List.all_eq_true.mp clean _ member) (by simp)

theorem without_intercalate {parts : List String} (between : Without mark separator)
    (clean : ∀ part ∈ parts, Without mark part) : Without mark (separator.intercalate parts) := by
  rw [Without, String.toList_intercalate]
  intro member
  rcases mem_intercalate member with held | ⟨_, among, held⟩
  · exact between held
  · obtain ⟨part, listed, rfl⟩ := List.mem_map.mp among
    exact clean part listed held

theorem without_nat (other : mark.isDigit = false) (n : Nat) : Without mark n.repr := by
  intro member
  rw [Nat.toList_repr] at member
  rw [Nat.isDigit_of_mem_toDigits (by decide) (by decide) member] at other
  cases other

theorem without_int (other : mark.isDigit = false) (unsigned : mark ≠ '-') (n : Int) : Without mark n.repr := by
  have minus : Without mark "-" := by
    simpa [Without] using unsigned
  cases n with
  | ofNat n => exact without_nat other n
  | negSucc n => exact without_append.mpr ⟨minus, without_nat other (n + 1)⟩

end without

theorem map_congr_of_map {α β γ : Type} {look : α → β} {other : α → γ} {first second : List α}
    (told : ∀ item ∈ first, ∀ twin ∈ second, look item = look twin → other item = other twin)
    (same : first.map look = second.map look) : first.map other = second.map other := by
  induction first generalizing second with
  | nil =>
      rw [List.map_nil, eq_comm, List.map_eq_nil_iff] at same
      rw [same]
  | cons item rest ih =>
      cases second with
      | nil => cases same
      | cons twin others =>
          obtain ⟨here, later⟩ := List.cons.inj same
          have tails : rest.map other = others.map other := by
            apply ih _ later
            intro item member twin among
            exact told item (List.mem_cons_of_mem _ member) twin (List.mem_cons_of_mem _ among)
          rw [List.map_cons, List.map_cons, told item List.mem_cons_self twin List.mem_cons_self here, tails]

section cutting

variable {mark : Char} {more : List Char}

theorem cutAt_eq_none {s : List Char} (clean : mark ∉ s) : cutAt (mark :: more) s = none := by
  induction s with
  | nil => rfl
  | cons c rest ih =>
      obtain ⟨other, others⟩ := List.ne_and_not_mem_of_not_mem_cons clean
      have elsewhere : (mark :: more).isPrefixOf (c :: rest) = false := by simp [List.isPrefixOf, other]
      rw [cutAt, elsewhere, ih others]
      rfl

theorem cutAt_append {front : List Char} (clean : mark ∉ front) (rest : List Char) :
    cutAt (mark :: more) (front ++ (mark :: more ++ rest)) = some (front, rest) := by
  induction front with
  | nil =>
      have here : (mark :: more).isPrefixOf (mark :: more ++ rest) = true :=
        List.isPrefixOf_iff_prefix.mpr (List.prefix_append _ _)
      rw [List.nil_append, List.cons_append, cutAt, ← List.cons_append, here, if_pos rfl, List.drop_left]
  | cons c front ih =>
      obtain ⟨other, others⟩ := List.ne_and_not_mem_of_not_mem_cons clean
      have elsewhere : (mark :: more).isPrefixOf (c :: (front ++ (mark :: more ++ rest))) = false := by
        simp [List.isPrefixOf, other]
      rw [List.cons_append, cutAt, elsewhere, ih others]
      rfl

end cutting

theorem startsWith_iff {s : List Char} {start : String} :
    startsWith s start = true ↔ ∃ rest, s = start.toList ++ rest := by
  rw [startsWith, List.isPrefixOf_iff_prefix]
  exact ⟨fun ⟨rest, same⟩ => ⟨rest, same.symm⟩, fun ⟨rest, same⟩ => ⟨rest, same.symm⟩⟩

theorem contains_iff {needle : List Char} (hay : List Char) :
    contains needle hay = true ↔ ∃ front back, hay = front ++ (needle ++ back) := by
  have infix_iff : contains needle hay = true ↔ needle <:+: hay := by
    induction hay with
    | nil => cases needle <;> simp [contains, cutAt]
    | cons c rest ih =>
        rw [List.infix_cons_iff, ← ih, ← List.isPrefixOf_iff_prefix, contains, contains, cutAt]
        split <;> simp_all
  rw [infix_iff]
  constructor
  · rintro ⟨front, back, same⟩
    exact ⟨front, back, by rw [← same, List.append_assoc]⟩
  · rintro ⟨front, back, same⟩
    exact ⟨front, back, by rw [same, List.append_assoc]⟩

end FlowAtlas.Text
