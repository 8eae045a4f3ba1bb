import FlowAtlas.Proofs.Pattern.Spelling

namespace FlowAtlas.Pattern

section occurring

variable {pattern : Pattern} {s : List Char}

theorem searchFrom_isSome (pattern : Pattern) (s : List Char) : ∀ behind : List Char,
    (pattern.searchFrom behind s).isSome = true ↔ ∃ front back, s = front ++ back ∧
      ∃ stop, stop ∈ pattern.places { behind := front.reverse ++ behind, ahead := back } := by
  induction s with
  | nil =>
      intro behind
      rw [searchFrom, matchAt_isSome]
      constructor
      · exact fun reached => ⟨[], [], rfl, reached⟩
      · rintro ⟨front, back, split, reached⟩
        obtain ⟨rfl, rfl⟩ := List.append_eq_nil_iff.mp split.symm
        exact reached
  | cons c rest ih =>
      intro behind
      have step : (pattern.searchFrom behind (c :: rest)).isSome = true ↔
          (∃ stop, stop ∈ pattern.places { behind, ahead := c :: rest }) ∨
            (pattern.searchFrom (c :: behind) rest).isSome = true := by
        rw [← matchAt_isSome, searchFrom]
        cases pattern.matchAt? behind (c :: rest) <;> simp
      rw [step, ih]
      constructor
      · rintro (here | ⟨front, back, rfl, reached⟩)
        · exact ⟨[], c :: rest, rfl, here⟩
        · exact ⟨c :: front, back, rfl, by simpa using reached⟩
      · rintro ⟨front, back, split, reached⟩
        cases front with
        | nil => exact Or.inl ((List.nil_append back).symm.trans split.symm ▸ reached)
        | cons d front =>
            obtain ⟨rfl, rfl⟩ := List.cons.inj split
            exact Or.inr ⟨front, back, rfl, by simpa using reached⟩

theorem occursIn_iff : pattern.occursIn s = true ↔ ∃ front back, s = front ++ back ∧
    ∃ stop, stop ∈ pattern.places { behind := front.reverse, ahead := back } := by
  rw [occursIn, search?, searchFrom_isSome]
  simp only [List.append_nil]

theorem occursIn_either (first second : Pattern) (s : List Char) :
    (either first second).occursIn s = (first.occursIn s || second.occursIn s) := by
  rw [Bool.eq_iff_iff, Bool.or_eq_true_iff, occursIn_iff, occursIn_iff, occursIn_iff]
  constructor
  · rintro ⟨front, back, split, stop, member⟩
    rcases List.mem_append.mp member with early | late
    · exact Or.inl ⟨front, back, split, stop, early⟩
    · exact Or.inr ⟨front, back, split, stop, late⟩
  · rintro (⟨front, back, split, stop, member⟩ | ⟨front, back, split, stop, member⟩)
    · exact ⟨front, back, split, stop, List.mem_append_left _ member⟩
    · exact ⟨front, back, split, stop, List.mem_append_right _ member⟩

theorem occursIn_plain (plain : pattern.Plain) : pattern.occursIn s = true ↔
    ∃ front text back, pattern.Spells text ∧ s = front ++ (text ++ back) := by
  rw [occursIn_iff]
  constructor
  · rintro ⟨front, back, rfl, stop, member⟩
    obtain ⟨text, spelled, apart⟩ := places_spell _ _ _ member
    exact ⟨front, text, stop.ahead, spelled, congrArg (front ++ ·) apart.ahead⟩
  · rintro ⟨front, text, back, spelled, split⟩
    have ahead : Place.ahead { behind := front.reverse, ahead := text ++ back } = text ++ back := rfl
    obtain ⟨stop, member, _⟩ := spells_reach plain spelled ahead
    exact ⟨front, text ++ back, split, stop, member⟩

theorem occursIn_anchored (plain : pattern.Plain) : (seq atStart pattern).occursIn s = true ↔
    ∃ text back, pattern.Spells text ∧ s = text ++ back := by
  rw [occursIn, search_anchored, matchAt_isSome]
  constructor
  · rintro ⟨stop, member⟩
    obtain ⟨text, spelled, apart⟩ := places_spell _ _ _ member
    exact ⟨text, stop.ahead, spelled, apart.ahead⟩
  · rintro ⟨text, back, spelled, rfl⟩
    have ahead : Place.ahead { behind := [], ahead := text ++ back } = text ++ back := rfl
    obtain ⟨stop, member, _⟩ := spells_reach plain spelled ahead
    exact ⟨stop, member⟩

end occurring

section ignoring

/-- A pattern that reads no character of a class, and cannot tell one ahead from the end of the text. -/
def Ignores (blind : Char → Prop) : Pattern → Prop
  | empty | unlessBehind _ | atStart => True
  | one accepts => ∀ c, blind c → accepts c = false
  | seq first second | either first second => first.Ignores blind ∧ second.Ignores blind
  | unlessAhead body => body.Ignores blind
  | wordEdge => ∀ c, blind c → Text.isWord c = false
  | run _ | briefRun _ | many _ | group _ _ | atEnd => False

section combinators

variable {blind : Char → Prop}

@[simp] theorem ignores_inOrder {parts : List Pattern} :
    (inOrder parts).Ignores blind ↔ ∀ part ∈ parts, part.Ignores blind := by
  induction parts with
  | nil => simp [inOrder, Ignores]
  | cons first rest ih =>
      cases rest with
      | nil => simp [inOrder]
      | cons second others => simp [inOrder, Ignores, ih]

@[simp] theorem ignores_anyOf {choices : List Pattern} :
    (anyOf choices).Ignores blind ↔ ∀ choice ∈ choices, choice.Ignores blind := by
  induction choices with
  | nil => simp [anyOf, Ignores]
  | cons first rest ih =>
      cases rest with
      | nil => simp [anyOf]
      | cons second others => simp [anyOf, Ignores, ih]

@[simp] theorem ignores_char {c : Char} : (Pattern.char c).Ignores blind ↔ ¬blind c := by
  constructor
  · intro ignores blinded
    simpa using ignores c blinded
  · intro seen d blinded
    simp only [beq_eq_false_iff_ne]
    exact fun same => seen (same ▸ blinded)

@[simp] theorem ignores_literal {s : String} : (literal s).Ignores blind ↔ ∀ d ∈ s.toList, ¬blind d := by
  simp [literal]

@[simp] theorem ignores_words {choices : List String} :
    (words choices).Ignores blind ↔ ∀ choice ∈ choices, ∀ d ∈ choice.toList, ¬blind d := by
  simp [words]

end combinators

def Place.followedBy (tail : List Char) (place : Place) : Place := { place with ahead := place.ahead ++ tail }

variable {blind : Char → Prop} {tail : List Char} (unread : ∀ c ∈ tail, blind c)

include unread

theorem places_followedBy {pattern : Pattern} : pattern.Ignores blind → ∀ place : Place,
    pattern.places (place.followedBy tail) = (pattern.places place).map (Place.followedBy tail) := by
  induction pattern with
  | empty => exact fun _ _ => rfl
  | one accepts =>
      intro ignores place
      obtain ⟨behind, ahead, used, groups⟩ := place
      cases ahead with
      | nil =>
          cases tail with
          | nil => rfl
          | cons c rest => exact if_neg (by simp [ignores c (unread c List.mem_cons_self)])
      | cons c rest =>
          cases accepted : accepts c <;> simp [places, Place.followedBy, Place.advance, accepted]
  | seq first second front back =>
      rintro ⟨early, late⟩ place
      rw [places, places, front early, List.flatMap_map, List.map_flatMap]
      exact congrArg (List.flatMap · (first.places place)) (funext (back late))
  | either first second front back =>
      rintro ⟨early, late⟩ place
      rw [places, places, front early, back late, List.map_append]
  | unlessAhead body ih =>
      intro ignores place
      rw [places, places, ih ignores, List.isEmpty_map, apply_ite (List.map _)]
      rfl
  | unlessBehind accepts =>
      intro _ place
      rw [places, places, apply_ite (List.map _)]
      rfl
  | atStart =>
      intro _ place
      rw [places, places, apply_ite (List.map _)]
      rfl
  | wordEdge =>
      intro ignores place
      have edge : (place.followedBy tail).isWordEdge = place.isWordEdge := by
        obtain ⟨behind, ahead, used, groups⟩ := place
        cases ahead with
        | nil =>
            cases tail with
            | nil => rfl
            | cons c rest => simp [Place.isWordEdge, Place.followedBy, ignores c (unread c List.mem_cons_self)]
        | cons => rfl
      rw [places, places, edge, apply_ite (List.map _)]
      rfl
  | run | briefRun | many | group | atEnd => exact fun ignores => ignores.elim

theorem occursIn_append {pattern : Pattern} (ignores : pattern.Ignores blind) (given : ¬pattern.Spells [])
    (s : List Char) : pattern.occursIn (s ++ tail) = pattern.occursIn s := by
  have nothing : ∀ behind, pattern.places { behind, ahead := [] } = [] := by
    intro behind
    refine List.eq_nil_iff_forall_not_mem.mpr fun stop member => ?_
    obtain ⟨text, spelled, apart⟩ := places_spell _ _ _ member
    obtain ⟨rfl, _⟩ := List.append_eq_nil_iff.mp apart.ahead.symm
    exact given spelled
  rw [Bool.eq_iff_iff, occursIn_iff, occursIn_iff]
  constructor
  · rintro ⟨front, back, split, stop, member⟩
    rcases List.append_eq_append_iff.mp split with ⟨more, rfl, behind⟩ | ⟨left, rfl, rfl⟩
    · -- Nothing of the text itself is ahead.
      have rest : ∀ c ∈ back, blind c := fun c among => unread c (behind ▸ List.mem_append_right _ among)
      have places := places_followedBy rest ignores { behind := (s ++ more).reverse, ahead := [] }
      rw [nothing] at places
      exact absurd (places ▸ member) List.not_mem_nil
    · have places := places_followedBy unread ignores { behind := front.reverse, ahead := left }
      obtain ⟨inner, reached, _⟩ := List.mem_map.mp (places ▸ member)
      exact ⟨front, left, rfl, inner, reached⟩
  · rintro ⟨front, back, rfl, stop, member⟩
    refine ⟨front, back ++ tail, List.append_assoc _ _ _, stop.followedBy tail, ?_⟩
    have places := places_followedBy unread ignores { behind := front.reverse, ahead := back }
    exact places ▸ List.mem_map_of_mem member

end ignoring

end FlowAtlas.Pattern
