import FlowAtlas.Proofs.Pattern.Reading
import Mathlib.Algebra.BigOperators.Group.List.Basic

/-! The texts that a pattern spells, and the places that a reading of them leads to. -/

namespace FlowAtlas.Pattern

/-- A text that a pattern can read. What is only looked at is left open. -/
def Spells : Pattern → List Char → Prop
  | empty, s | unlessAhead _, s | unlessBehind _, s | atStart, s | atEnd, s | wordEdge, s => s = []
  | one accepts, s => ∃ c, accepts c = true ∧ s = [c]
  | seq first second, s => ∃ front back, first.Spells front ∧ second.Spells back ∧ s = front ++ back
  | either first second, s => first.Spells s ∨ second.Spells s
  | run accepts, s | briefRun accepts, s => ∀ c ∈ s, accepts c = true
  | many body, s => ∃ pieces : List (List Char), (∀ piece ∈ pieces, body.Spells piece) ∧ s = pieces.flatten
  | group _ body, s => body.Spells s

structure Apart (text : List Char) (start stop : Place) : Prop where
  ahead : start.ahead = text ++ stop.ahead
  behind : stop.behind = text.reverse ++ start.behind
  used : stop.used = start.used + text.length

theorem Apart.refl (place : Place) : Apart [] place place := ⟨rfl, rfl, rfl⟩

theorem Apart.trans {text more : List Char} {first second third : Place} (front : Apart text first second)
    (back : Apart more second third) : Apart (text ++ more) first third := by
  refine ⟨?_, ?_, ?_⟩
  · rw [front.ahead, back.ahead, List.append_assoc]
  · rw [back.behind, front.behind, List.reverse_append, List.append_assoc]
  · rw [back.used, front.used, List.length_append, Nat.add_assoc]

section sound

variable {start stop : Place}

theorem rounds_spell {body : Pattern}
    (sound : ∀ start, ∀ stop ∈ body.places start, ∃ text, body.Spells text ∧ Apart text start stop)
    (member : stop ∈ (many body).places start) : ∃ text, (many body).Spells text ∧ Apart text start stop := by
  have chained : Chained fun start stop : Place => ∃ text, (many body).Spells text ∧ Apart text start stop := by
    refine ⟨fun place => ⟨[], ⟨[], by simp, rfl⟩, Apart.refl place⟩, ?_⟩
    rintro first second third ⟨_, ⟨pieces, spelled, rfl⟩, front⟩ ⟨_, ⟨others, further, rfl⟩, back⟩
    refine ⟨_, ⟨pieces ++ others, ?_, rfl⟩, ?_⟩
    · intro piece among
      rcases List.mem_append.mp among with early | late
      · exact spelled piece early
      · exact further piece late
    · rw [List.flatten_append]
      exact front.trans back
  have once : ∀ place, ∀ next ∈ body.places place, ∃ text, (many body).Spells text ∧ Apart text place next := by
    intro place next reached
    obtain ⟨text, spelled, apart⟩ := sound place next reached
    exact ⟨text, ⟨[text], by simpa using spelled, by simp⟩, apart⟩
  rcases rounds_related chained once _ start stop [] member with found | none
  · exact found
  · cases none

theorem places_spell (pattern : Pattern) :
    ∀ start, ∀ stop ∈ pattern.places start, ∃ text, pattern.Spells text ∧ Apart text start stop := by
  induction pattern with
  | empty =>
      intro start stop member
      rw [List.mem_singleton.mp member]
      exact ⟨[], rfl, Apart.refl start⟩
  | one accepts =>
      intro start stop member
      rw [places] at member
      split at member
      · rename_i c rest ahead
        split at member
        · rename_i accepted
          rw [List.mem_singleton.mp member]
          exact ⟨[c], ⟨c, accepted, rfl⟩, ahead, rfl, rfl⟩
        · cases member
      · cases member
  | seq first second front back =>
      intro start stop member
      obtain ⟨middle, reached, member⟩ := List.mem_flatMap.mp member
      obtain ⟨text, spelled, early⟩ := front start middle reached
      obtain ⟨more, further, late⟩ := back middle stop member
      exact ⟨text ++ more, ⟨text, more, spelled, further, rfl⟩, early.trans late⟩
  | either first second front back =>
      intro start stop member
      rcases List.mem_append.mp member with member | member
      · obtain ⟨text, spelled, apart⟩ := front start stop member
        exact ⟨text, Or.inl spelled, apart⟩
      · obtain ⟨text, spelled, apart⟩ := back start stop member
        exact ⟨text, Or.inr spelled, apart⟩
  | run accepts | briefRun accepts =>
      intro start stop member
      obtain ⟨text, ahead, behind, used, spelled⟩ := places_read (by exact fun _ accepted => accepted) member
      exact ⟨text, spelled, ahead, behind, used⟩
  | many body ih => exact fun start stop member => rounds_spell ih member
  | group label body ih =>
      intro start stop member
      obtain ⟨inner, reached, rfl⟩ := List.mem_map.mp member
      obtain ⟨text, spelled, apart⟩ := ih start inner reached
      exact ⟨text, spelled, apart.ahead, apart.behind, apart.used⟩
  | unlessAhead body _ | atStart | atEnd | wordEdge =>
      intro start stop member
      rw [eq_of_mem_test member]
      exact ⟨[], rfl, Apart.refl start⟩
  | unlessBehind accepts =>
      intro start stop member
      rw [eq_of_mem_test_not member]
      exact ⟨[], rfl, Apart.refl start⟩

end sound

section complete

/-- A pattern without tests and repeated bodies. -/
def Plain : Pattern → Prop
  | empty | one _ | run _ | briefRun _ => True
  | seq first second | either first second => first.Plain ∧ second.Plain
  | group _ body => body.Plain
  | many _ | unlessAhead _ | unlessBehind _ | atStart | atEnd | wordEdge => False

theorem briefRuns_reach {accepts : Char → Bool} {text : List Char} (accepted : ∀ c ∈ text, accepts c = true)
    (rest : List Char) : ∀ start : Place, start.ahead = text ++ rest →
      ∃ stop ∈ briefRuns accepts start (text ++ rest), stop.ahead = rest := by
  induction text with
  | nil =>
      intro start ahead
      refine ⟨start, ?_, ahead⟩
      cases rest with
      | nil => exact List.mem_singleton.mpr rfl
      | cons c rest =>
          rw [List.nil_append, briefRuns]
          split
          · exact List.mem_cons_self
          · exact List.mem_singleton.mpr rfl
  | cons c text ih =>
      intro start _
      obtain ⟨stop, reached, ahead⟩ := ih (fun d member => accepted d (List.mem_cons_of_mem _ member))
        (start.advance c (text ++ rest)) rfl
      refine ⟨stop, ?_, ahead⟩
      rw [List.cons_append, briefRuns, if_pos (accepted c List.mem_cons_self)]
      exact List.mem_cons_of_mem _ reached

theorem spells_reach {pattern : Pattern} : pattern.Plain → ∀ {text : List Char}, pattern.Spells text →
    ∀ {start : Place} {rest : List Char}, start.ahead = text ++ rest →
      ∃ stop ∈ pattern.places start, stop.ahead = rest := by
  induction pattern with
  | empty =>
      rintro _ _ rfl start rest ahead
      exact ⟨start, List.mem_singleton.mpr rfl, ahead⟩
  | one accepts =>
      rintro _ _ ⟨c, accepted, rfl⟩ start rest ahead
      refine ⟨start.advance c rest, ?_, rfl⟩
      have read : start.ahead = c :: rest := ahead
      rw [places, read]
      simp [accepted]
  | seq first second front back =>
      rintro ⟨early, late⟩ _ ⟨text, more, spelled, further, rfl⟩ start rest ahead
      rw [List.append_assoc] at ahead
      obtain ⟨middle, reached, left⟩ := front early spelled ahead
      obtain ⟨stop, arrived, behind⟩ := back late further left
      exact ⟨stop, List.mem_flatMap.mpr ⟨middle, reached, arrived⟩, behind⟩
  | either first second front back =>
      rintro ⟨early, late⟩ text (spelled | spelled) start rest ahead
      · obtain ⟨stop, reached, left⟩ := front early spelled ahead
        exact ⟨stop, List.mem_append_left _ reached, left⟩
      · obtain ⟨stop, reached, left⟩ := back late spelled ahead
        exact ⟨stop, List.mem_append_right _ reached, left⟩
  | run accepts =>
      intro _ text spelled start rest ahead
      obtain ⟨stop, reached, left⟩ := briefRuns_reach spelled rest start ahead
      exact ⟨stop, (mem_runs _ _ _).mpr (Or.inl (ahead ▸ reached)), left⟩
  | briefRun accepts =>
      intro _ text spelled start rest ahead
      obtain ⟨stop, reached, left⟩ := briefRuns_reach spelled rest start ahead
      exact ⟨stop, by rwa [places, ahead], left⟩
  | group label body ih =>
      intro plain text spelled start rest ahead
      obtain ⟨stop, reached, left⟩ := ih plain spelled ahead
      exact ⟨start.record label stop, List.mem_map_of_mem reached, left⟩
  | many | unlessAhead | unlessBehind | atStart | atEnd | wordEdge => exact fun plain => plain.elim

theorem rounds_fewer {step : Place → List Place} {stop : Place} (limit : Nat) :
    ∀ (place : Place) (fewer : List Place), stop = place ∨ stop ∈ fewer → stop ∈ rounds step limit place fewer := by
  induction limit with
  | zero =>
      intro place fewer held
      exact List.mem_cons.mpr held
  | succ limit ih =>
      intro place fewer held
      have folded : ∀ nexts : List Place, stop ∈ nexts.foldr (rounds step limit) (place :: fewer) := by
        intro nexts
        induction nexts with
        | nil => exact List.mem_cons.mpr held
        | cons next nexts tail => exact ih next _ (Or.inr tail)
      exact folded (step place)

theorem rounds_reach {body : Pattern} (plain : body.Plain) {pieces : List (List Char)}
    (spelled : ∀ piece ∈ pieces, body.Spells piece) (rest : List Char) : ∀ {limit : Nat} {start : Place},
      pieces.length ≤ limit → start.ahead = pieces.flatten ++ rest →
        ∃ stop, stop.ahead = rest ∧ ∀ fewer, stop ∈ rounds (places body) limit start fewer := by
  induction pieces with
  | nil => exact fun {limit start} _ ahead => ⟨start, ahead, fun fewer => rounds_fewer limit start fewer (Or.inl rfl)⟩
  | cons piece others ih =>
      intro limit start enough ahead
      obtain ⟨here, later⟩ := List.forall_mem_cons.mp spelled
      rw [List.flatten_cons, List.append_assoc] at ahead
      obtain ⟨middle, reached, left⟩ := spells_reach plain here ahead
      rw [List.length_cons] at enough
      obtain ⟨limit, rfl⟩ := Nat.exists_eq_add_of_le' (Nat.le_of_add_left_le enough)
      obtain ⟨stop, behind, arrives⟩ := ih later (Nat.le_of_add_le_add_right enough) left
      refine ⟨stop, behind, ?_⟩
      intro fewer
      have folded : ∀ nexts : List Place, middle ∈ nexts →
          stop ∈ nexts.foldr (rounds (places body) limit) (start :: fewer) := by
        intro nexts
        induction nexts with
        | nil => exact fun member => nomatch member
        | cons next nexts tail =>
            intro member
            rcases List.mem_cons.mp member with rfl | among
            · exact arrives _
            · exact rounds_fewer limit next _ (Or.inr (tail among))
      exact folded _ reached

theorem many_reach {body : Pattern} (plain : body.Plain) {pieces : List (List Char)}
    (spelled : ∀ piece ∈ pieces, piece ≠ [] ∧ body.Spells piece) {start : Place} {rest : List Char}
    (ahead : start.ahead = pieces.flatten ++ rest) : ∃ stop ∈ (many body).places start, stop.ahead = rest := by
  have enough : pieces.length ≤ start.ahead.length := by
    have sizes : ∀ size ∈ pieces.map List.length, 1 ≤ size := by
      intro size member
      obtain ⟨piece, among, rfl⟩ := List.mem_map.mp member
      exact List.length_pos_iff.mpr (spelled piece among).1
    have total := List.length_le_sum_of_one_le _ sizes
    rw [List.length_map] at total
    rw [ahead, List.length_append, List.length_flatten]
    exact Nat.le_add_right_of_le total
  obtain ⟨stop, behind, arrives⟩ := rounds_reach plain (fun piece member => (spelled piece member).2) rest enough ahead
  exact ⟨stop, arrives [], behind⟩

theorem self_mem_many (body : Pattern) (start : Place) : start ∈ (many body).places start :=
  rounds_fewer _ _ _ (Or.inl rfl)

end complete

section combinators

variable {s : List Char}

theorem mem_seq {first second : Pattern} {start stop : Place} :
    stop ∈ (seq first second).places start ↔ ∃ middle ∈ first.places start, stop ∈ second.places middle :=
  List.mem_flatMap

theorem mem_inOrder_cons {first : Pattern} {rest : List Pattern} {start stop : Place} :
    stop ∈ (inOrder (first :: rest)).places start ↔
      ∃ middle ∈ first.places start, stop ∈ (inOrder rest).places middle := by
  cases rest with
  | nil =>
      constructor
      · exact fun member => ⟨stop, member, List.mem_singleton.mpr rfl⟩
      · rintro ⟨middle, member, same⟩
        exact (List.mem_singleton.mp same) ▸ member
  | cons second others => exact mem_seq

theorem mem_inOrder_append {front back : List Pattern} {start stop : Place} :
    stop ∈ (inOrder (front ++ back)).places start ↔
      ∃ middle ∈ (inOrder front).places start, stop ∈ (inOrder back).places middle := by
  induction front generalizing start with
  | nil => simp [inOrder, places]
  | cons first rest ih =>
      rw [List.cons_append, mem_inOrder_cons]
      constructor
      · rintro ⟨middle, reached, member⟩
        obtain ⟨later, arrived, member⟩ := ih.mp member
        exact ⟨later, mem_inOrder_cons.mpr ⟨middle, reached, arrived⟩, member⟩
      · rintro ⟨later, arrived, member⟩
        obtain ⟨middle, reached, arrived⟩ := mem_inOrder_cons.mp arrived
        exact ⟨middle, reached, ih.mpr ⟨later, arrived, member⟩⟩

@[simp] theorem spells_inOrder_nil : (inOrder []).Spells s ↔ s = [] := Iff.rfl

@[simp] theorem spells_inOrder_cons {first : Pattern} {rest : List Pattern} :
    (inOrder (first :: rest)).Spells s ↔
      ∃ front back, first.Spells front ∧ (inOrder rest).Spells back ∧ s = front ++ back := by
  cases rest with
  | nil => simp [inOrder, Spells]
  | cons second others => exact Iff.rfl

theorem spells_inOrder_append {front back : List Pattern} : (inOrder (front ++ back)).Spells s ↔
    ∃ first second, (inOrder front).Spells first ∧ (inOrder back).Spells second ∧ s = first ++ second := by
  induction front generalizing s with
  | nil => simp
  | cons part rest ih =>
      rw [List.cons_append, spells_inOrder_cons]
      constructor
      · rintro ⟨lead, _, leads, others, rfl⟩
        obtain ⟨first, second, early, late, rfl⟩ := ih.mp others
        exact ⟨lead ++ first, second, spells_inOrder_cons.mpr ⟨lead, first, leads, early, rfl⟩, late,
          (List.append_assoc ..).symm⟩
      · rintro ⟨_, second, early, late, rfl⟩
        obtain ⟨lead, first, leads, others, rfl⟩ := spells_inOrder_cons.mp early
        exact ⟨lead, first ++ second, leads, ih.mpr ⟨first, second, others, late, rfl⟩, List.append_assoc ..⟩

theorem mem_atEnd {start stop : Place} :
    stop ∈ atEnd.places start ↔ stop = start ∧ (start.ahead = [] ∨ start.ahead = ['\n']) := by
  have ends : start.isEnd = true ↔ start.ahead = [] ∨ start.ahead = ['\n'] := by
    rw [Place.isEnd]
    split <;> simp_all
  rw [← ends, places]
  split <;> simp_all

theorem mem_wordEdge {start stop : Place} : stop ∈ wordEdge.places start ↔ stop = start ∧ start.isWordEdge = true := by
  rw [places]
  split <;> simp_all

@[simp] theorem plain_inOrder {parts : List Pattern} : (inOrder parts).Plain ↔ ∀ part ∈ parts, part.Plain := by
  induction parts with
  | nil => simp [inOrder, Plain]
  | cons first rest ih =>
      cases rest with
      | nil => simp [inOrder]
      | cons second others => simp [inOrder, Plain, ih]

@[simp] theorem plain_seq {first second : Pattern} : (seq first second).Plain ↔ first.Plain ∧ second.Plain := Iff.rfl

@[simp] theorem plain_one {accepts : Char → Bool} : (one accepts).Plain := trivial

@[simp] theorem plain_char {c : Char} : (Pattern.char c).Plain := trivial

@[simp] theorem plain_literal {text : String} : (literal text).Plain := by
  simp [literal]

@[simp] theorem plain_words {choices : List String} (given : choices ≠ []) : (words choices).Plain := by
  induction choices with
  | nil => exact absurd rfl given
  | cons first rest ih =>
      cases rest with
      | nil => exact plain_literal
      | cons second others => exact ⟨plain_literal, ih (List.cons_ne_nil _ _)⟩

@[simp] theorem plain_optional {body : Pattern} : (optional body).Plain ↔ body.Plain := and_iff_left trivial

@[simp] theorem plain_run {accepts : Char → Bool} : (run accepts).Plain := trivial

@[simp] theorem plain_run1 {accepts : Char → Bool} : (run1 accepts).Plain := ⟨trivial, trivial⟩

@[simp] theorem plain_group {label : Group} {body : Pattern} : (group label body).Plain ↔ body.Plain := Iff.rfl

@[simp] theorem spells_char {c : Char} : (Pattern.char c).Spells s ↔ s = [c] := by
  simp [Pattern.char, Spells]

@[simp] theorem spells_literal {text : String} : (literal text).Spells s ↔ s = text.toList := by
  rw [literal]
  generalize text.toList = chars
  induction chars generalizing s with
  | nil => rfl
  | cons c chars ih => simp [ih]

theorem spells_anyOf {choices : List Pattern} (given : choices ≠ []) :
    (anyOf choices).Spells s ↔ ∃ choice ∈ choices, choice.Spells s := by
  induction choices with
  | nil => exact absurd rfl given
  | cons first rest ih =>
      cases rest with
      | nil => simp [anyOf]
      | cons second others => simp [anyOf, Spells, ih (List.cons_ne_nil _ _)]

theorem spells_words {choices : List String} (given : choices ≠ []) :
    (words choices).Spells s ↔ ∃ choice ∈ choices, s = choice.toList := by
  rw [words, spells_anyOf (by simpa using given)]
  simp

@[simp] theorem spells_optional {body : Pattern} : (optional body).Spells s ↔ body.Spells s ∨ s = [] := Iff.rfl

@[simp] theorem spells_run1 {accepts : Char → Bool} :
    (run1 accepts).Spells s ↔ s ≠ [] ∧ ∀ c ∈ s, accepts c = true := by
  constructor
  · rintro ⟨_, back, ⟨c, accepted, rfl⟩, others, rfl⟩
    exact ⟨List.cons_ne_nil _ _, List.forall_mem_cons.mpr ⟨accepted, others⟩⟩
  · rintro ⟨some, all⟩
    obtain ⟨c, rest, rfl⟩ := List.exists_cons_of_ne_nil some
    exact ⟨[c], rest, ⟨c, all c List.mem_cons_self, rfl⟩, fun d member => all d (List.mem_cons_of_mem _ member), rfl⟩

end combinators

section search

def Ungrouped : Pattern → Prop := Each (fun _ => True) fun _ _ => False

theorem places_groups {pattern : Pattern} (ungrouped : pattern.Ungrouped) {start stop : Place}
    (member : stop ∈ pattern.places start) : stop.groups = start.groups := by
  have chained : Chained fun start stop : Place => stop.groups = start.groups :=
    ⟨fun _ => rfl, fun front back => back.trans front⟩
  exact places_related chained (fun _ _ _ _ _ _ _ => rfl) (fun _ _ grouped => grouped.elim) pattern ungrouped
    start stop member

theorem search_anchored (body : Pattern) (s : List Char) : (seq atStart body).search? s = body.matchAt? [] s := by
  have first : (seq atStart body).matchAt? [] s = body.matchAt? [] s := by
    have read : (seq atStart body).places { behind := [], ahead := s } = body.places { behind := [], ahead := s } :=
      List.flatMap_singleton _ _
    rw [matchAt?, matchAt?, read]
  have later : ∀ (rest : List Char) (c : Char) (behind : List Char),
      (seq atStart body).searchFrom (c :: behind) rest = none := by
    intro rest
    induction rest with
    | nil => exact fun _ _ => rfl
    | cons d rest ih => exact fun c behind => ih d (c :: behind)
  rw [search?]
  cases s with
  | nil => exact first
  | cons c rest =>
      rw [searchFrom, first]
      cases body.matchAt? [] (c :: rest) with
      | none => exact later rest c []
      | some found => rfl

theorem matchAt_isSome {pattern : Pattern} {behind ahead : List Char} :
    (pattern.matchAt? behind ahead).isSome ↔ ∃ stop, stop ∈ pattern.places { behind, ahead } := by
  rw [matchAt?, Option.isSome_map, List.isSome_head?]
  exact ⟨List.exists_mem_of_ne_nil _, fun found => found.elim fun _ => List.ne_nil_of_mem⟩

theorem subject_of_groups (found : Match) {span : Span} {more : List (Group × Span)}
    (groups : found.groups = (.subject, span) :: more) :
    found.subject = span.text ∧ found.afterSubject = span.rest := by
  rw [Match.subject, Match.afterSubject, Match.group?, groups, List.lookup_cons_self]
  exact ⟨rfl, rfl⟩

/-- A match spells what is in front of its subject, the subject, and what is behind it. -/
theorem matchAt_spells {front back : List Pattern} {body : Pattern} (ungrouped : (inOrder back).Ungrouped)
    {earlier s : List Char} {found : Match}
    (matched : (inOrder (front ++ group .subject body :: back)).matchAt? earlier s = some found) :
    ∃ lead tail, (inOrder front).Spells lead ∧ body.Spells found.subject ∧ (inOrder back).Spells tail ∧
      found.afterSubject = tail ++ found.rest ∧ s = lead ++ (found.subject ++ found.afterSubject) := by
  rw [matchAt?, Option.map_eq_some_iff] at matched
  obtain ⟨stop, first, rfl⟩ := matched
  obtain ⟨middle, reached, member⟩ := mem_inOrder_append.mp (List.mem_of_mem_head? first)
  obtain ⟨behind, marked, arrived⟩ := mem_inOrder_cons.mp member
  obtain ⟨inner, read, rfl⟩ := List.mem_map.mp marked
  obtain ⟨lead, led, before⟩ := places_spell _ _ _ reached
  obtain ⟨name, named, between⟩ := places_spell _ _ _ read
  obtain ⟨tail, followed, after⟩ := places_spell _ _ _ arrived
  have spelled : Span.text ⟨inner.behind, inner.used - middle.used, inner.ahead⟩ = name := by
    rw [Span.text, between.behind, between.used, Nat.add_sub_cancel_left, List.take_left' List.length_reverse,
      List.reverse_reverse]
  obtain ⟨subject, rest⟩ := subject_of_groups ⟨earlier, Place.since _ stop, stop.ahead, stop.groups⟩
    (places_groups ungrouped arrived)
  rw [subject, rest]
  refine ⟨lead, tail, led, ?_, followed, after.ahead, ?_⟩
  · exact spelled.symm ▸ named
  · rw [spelled, ← between.ahead]
    exact before.ahead

end search

end FlowAtlas.Pattern
