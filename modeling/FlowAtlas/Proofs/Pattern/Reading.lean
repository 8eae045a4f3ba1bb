import FlowAtlas.Pattern.Search
import Mathlib.Data.List.Basic

/-! What a pattern reads: the text between two places, and the subjects that it marks on the way. -/

namespace FlowAtlas.Pattern

variable {accepts : Char → Prop}

/-- Every class of characters that the pattern reads fits, and every group is sound. What is only looked at does
not count. -/
def Each (fits : (Char → Bool) → Prop) (sound : Group → Pattern → Prop) : Pattern → Prop
  | one p | run p | briefRun p => fits p
  | seq first second | either first second => first.Each fits sound ∧ second.Each fits sound
  | many body => body.Each fits sound
  | group label body => sound label body ∧ body.Each fits sound
  | empty | unlessAhead _ | unlessBehind _ | atStart | atEnd | wordEdge => True

section combinators

variable {fits : (Char → Bool) → Prop} {sound : Group → Pattern → Prop}

@[simp] theorem each_inOrder (parts : List Pattern) :
    (inOrder parts).Each fits sound ↔ ∀ part ∈ parts, part.Each fits sound := by
  induction parts with
  | nil => simp [inOrder, Each]
  | cons first rest ih =>
      cases rest with
      | nil => simp [inOrder]
      | cons second others => simp [inOrder, Each, ih]

@[simp] theorem each_anyOf (choices : List Pattern) :
    (anyOf choices).Each fits sound ↔ ∀ choice ∈ choices, choice.Each fits sound := by
  induction choices with
  | nil => simp [anyOf, Each]
  | cons first rest ih =>
      cases rest with
      | nil => simp [anyOf]
      | cons second others => simp [anyOf, Each, ih]

@[simp] theorem each_literal (s : String) :
    (literal s).Each fits sound ↔ ∀ c ∈ s.toList, fits (· == c) := by
  simp [literal, Each, Pattern.char]

@[simp] theorem each_words (choices : List String) :
    (words choices).Each fits sound ↔ ∀ choice ∈ choices, ∀ c ∈ choice.toList, fits (· == c) := by
  simp [words]

@[simp] theorem each_optional (body : Pattern) :
    (optional body).Each fits sound ↔ body.Each fits sound := by
  simp [optional, Each]

@[simp] theorem each_run1 (p : Char → Bool) : (run1 p).Each fits sound ↔ fits p := by
  simp [run1, Each]

end combinators

def Reads (accepts : Char → Prop) : Pattern → Prop :=
  Each (fun p => ∀ c, p c = true → accepts c) fun _ _ => True

def SubjectReads (accepts : Char → Prop) : Pattern → Prop :=
  Each (fun _ => True) fun label body => label = .subject → body.Reads accepts

def Read (accepts : Char → Prop) (start stop : Place) : Prop :=
  ∃ text, start.ahead = text ++ stop.ahead ∧ stop.behind = text.reverse ++ start.behind ∧
    stop.used = start.used + text.length ∧ ∀ c ∈ text, accepts c

theorem read_refl (place : Place) : Read accepts place place :=
  ⟨[], by simp, by simp, by simp, by simp⟩

theorem read_trans {first second third : Place} (front : Read accepts first second)
    (back : Read accepts second third) : Read accepts first third := by
  obtain ⟨text, ahead, behind, used, accepted⟩ := front
  obtain ⟨more, ahead', behind', used', accepted'⟩ := back
  refine ⟨text ++ more, by simp [ahead, ahead'], by simp [behind, behind'], ?_, ?_⟩
  · simp only [used', used, List.length_append]
    omega
  · intro c member
    rcases List.mem_append.mp member with member | member
    · exact accepted c member
    · exact accepted' c member

theorem read_advance {place : Place} {c : Char} {rest : List Char} (ahead : place.ahead = c :: rest)
    (accepted : accepts c) : Read accepts place (place.advance c rest) :=
  ⟨[c], by simpa [Place.advance] using ahead, by simp [Place.advance], by simp [Place.advance],
    by simpa using accepted⟩

theorem read_since {start stop : Place} (read : Read accepts start stop) :
    start.ahead = start.since stop ++ stop.ahead ∧ ∀ c ∈ start.since stop, accepts c := by
  obtain ⟨text, ahead, behind, used, accepted⟩ := read
  have since : start.since stop = text := by
    have length : stop.used - start.used = text.reverse.length := by
      rw [used, List.length_reverse]
      omega
    rw [Place.since, behind, length, List.take_left, List.reverse_reverse]
  rw [since]
  exact ⟨ahead, accepted⟩

structure Chained (related : Place → Place → Prop) : Prop where
  refl : ∀ place, related place place
  trans : ∀ {first second third}, related first second → related second third → related first third

theorem read_chained : Chained (Read accepts) := ⟨read_refl, read_trans⟩

variable {related : Place → Place → Prop}

theorem rounds_related (chained : Chained related) {step : Place → List Place}
    (kept : ∀ place, ∀ stop ∈ step place, related place stop) (limit : Nat) :
    ∀ (place stop : Place) (fewer : List Place), stop ∈ rounds step limit place fewer →
      related place stop ∨ stop ∈ fewer := by
  induction limit with
  | zero =>
      intro place stop fewer member
      rcases List.mem_cons.mp member with rfl | member
      · exact Or.inl (chained.refl _)
      · exact Or.inr member
  | succ limit ih =>
      intro place stop fewer member
      have folded : ∀ nexts : List Place, stop ∈ nexts.foldr (rounds step limit) (place :: fewer) →
          (∃ next ∈ nexts, related next stop) ∨ stop ∈ place :: fewer := by
        intro nexts
        induction nexts with
        | nil => exact Or.inr
        | cons next nexts tail =>
            intro member
            rcases ih next stop _ member with found | member
            · exact Or.inl ⟨next, List.mem_cons_self, found⟩
            · rcases tail member with ⟨later, among, found⟩ | member
              · exact Or.inl ⟨later, List.mem_cons_of_mem _ among, found⟩
              · exact Or.inr member
      rcases folded (step place) member with ⟨next, among, found⟩ | member
      · exact Or.inl (chained.trans (kept place next among) found)
      · rcases List.mem_cons.mp member with rfl | member
        · exact Or.inl (chained.refl _)
        · exact Or.inr member

theorem mem_runs {p : Char → Bool} {stop : Place} (s : List Char) :
    ∀ (place : Place) (nearer : List Place),
      stop ∈ runs p place nearer s ↔ stop ∈ briefRuns p place s ∨ stop ∈ nearer := by
  induction s with
  | nil =>
      intro place nearer
      simp [runs, briefRuns]
  | cons c rest ih =>
      intro place nearer
      rw [runs, briefRuns]
      split
      · rw [ih]
        simp only [List.mem_cons]
        tauto
      · simp

theorem briefRuns_related (chained : Chained related) {p : Char → Bool}
    (kept : ∀ place c rest, place.ahead = c :: rest → p c = true → related place (place.advance c rest))
    (s : List Char) : ∀ (place stop : Place), place.ahead = s → stop ∈ briefRuns p place s →
      related place stop := by
  induction s with
  | nil =>
      intro place stop _ member
      rw [List.mem_singleton.mp member]
      exact chained.refl _
  | cons c rest ih =>
      intro place stop ahead member
      rw [briefRuns] at member
      split at member
      · rename_i accepted
        rcases List.mem_cons.mp member with rfl | member
        · exact chained.refl _
        · exact chained.trans (kept place c rest ahead accepted) (ih _ stop rfl member)
      · rw [List.mem_singleton.mp member]
        exact chained.refl _

theorem eq_of_mem_test {test : Bool} {place stop : Place}
    (member : stop ∈ if test then [place] else []) : stop = place := by
  split at member
  · exact List.mem_singleton.mp member
  · cases member

theorem eq_of_mem_test_not {test : Bool} {place stop : Place}
    (member : stop ∈ if test then [] else [place]) : stop = place := by
  split at member
  · cases member
  · exact List.mem_singleton.mp member

/-- A relation that single characters of the classes and the groups of a pattern keep is kept by the pattern. -/
theorem places_related (chained : Chained related) {fits : (Char → Bool) → Prop}
    {sound : Group → Pattern → Prop}
    (characters : ∀ p, fits p → ∀ place c rest, place.ahead = c :: rest → p c = true →
      related place (place.advance c rest))
    (groups : ∀ label body, sound label body → ∀ start, ∀ stop ∈ body.places start, related start stop →
      related start (start.record label stop))
    (pattern : Pattern) : pattern.Each fits sound →
      ∀ start, ∀ stop ∈ pattern.places start, related start stop := by
  induction pattern with
  | empty =>
      intro _ start stop member
      rw [List.mem_singleton.mp member]
      exact chained.refl _
  | one p =>
      intro each start stop member
      rw [places] at member
      split at member
      · rename_i c rest ahead
        split at member
        · rename_i accepted
          rw [List.mem_singleton.mp member]
          exact characters p each start c rest ahead accepted
        · cases member
      · cases member
  | seq first second front back =>
      intro each start stop member
      obtain ⟨middle, reached, member⟩ := List.mem_flatMap.mp member
      exact chained.trans (front each.1 start middle reached) (back each.2 middle stop member)
  | either first second front back =>
      intro each start stop member
      rcases List.mem_append.mp member with member | member
      · exact front each.1 start stop member
      · exact back each.2 start stop member
  | run p =>
      intro each start stop member
      rcases (mem_runs _ _ _).mp member with member | member
      · exact briefRuns_related chained (characters p each) _ start stop rfl member
      · cases member
  | briefRun p =>
      intro each start stop member
      exact briefRuns_related chained (characters p each) _ start stop rfl member
  | many body ih =>
      intro each start stop member
      rcases rounds_related chained (ih each) _ start stop [] member with found | member
      · exact found
      · cases member
  | group label body ih =>
      intro each start stop member
      obtain ⟨inner, reached, rfl⟩ := List.mem_map.mp member
      exact groups label body each.1 start inner reached (ih each.2 start inner reached)
  | unlessAhead body _ | atStart | atEnd | wordEdge =>
      intro _ start stop member
      rw [eq_of_mem_test member]
      exact chained.refl _
  | unlessBehind p =>
      intro _ start stop member
      rw [eq_of_mem_test_not member]
      exact chained.refl _

theorem places_read {pattern : Pattern} (reads : pattern.Reads accepts) {start stop : Place}
    (member : stop ∈ pattern.places start) : Read accepts start stop :=
  places_related read_chained (fun _ fits _ _ _ ahead accepted => read_advance ahead (fits _ accepted))
    (fun _ _ _ _ _ _ read => read) pattern reads start stop member

theorem reads_any (pattern : Pattern) : pattern.Reads fun _ => True := by
  induction pattern with
  | seq _ _ front back | either _ _ front back => exact ⟨front, back⟩
  | many _ ih => exact ih
  | group _ _ ih => exact ⟨trivial, ih⟩
  | one | run | briefRun => exact fun _ _ => trivial
  | _ => trivial

theorem matchAt_text {pattern : Pattern} {behind ahead : List Char} {found : Match}
    (matched : pattern.matchAt? behind ahead = some found) : ahead = found.text ++ found.rest := by
  rw [matchAt?, Option.map_eq_some_iff] at matched
  obtain ⟨stop, first, rfl⟩ := matched
  exact (read_since (places_read (reads_any pattern) (List.mem_of_mem_head? first))).1

def Place.Marked (accepts : Char → Prop) (place : Place) : Prop :=
  ∀ span, (Group.subject, span) ∈ place.groups → ∀ c ∈ span.text, accepts c

theorem marked_record {start stop : Place} {label : Group} (marked : stop.Marked accepts)
    (read : label = .subject → Read accepts start stop) : (start.record label stop).Marked accepts := by
  intro span member
  rcases List.mem_cons.mp member with same | member
  · obtain ⟨rfl, rfl⟩ := Prod.mk.inj same
    exact (read_since (read rfl)).2
  · exact marked span member

theorem places_marked {pattern : Pattern} (reads : pattern.SubjectReads accepts) {start stop : Place}
    (member : stop ∈ pattern.places start) (marked : start.Marked accepts) : stop.Marked accepts := by
  have chained : Chained fun start stop : Place => start.Marked accepts → stop.Marked accepts :=
    ⟨fun _ => id, fun front back => back ∘ front⟩
  exact places_related chained (fun _ _ _ _ _ _ _ => id)
    (fun _ _ sound _ _ reached kept marked =>
      marked_record (kept marked) fun subject => places_read (sound subject) reached)
    pattern reads start stop member marked

theorem matchAt_subject {pattern : Pattern} (reads : pattern.SubjectReads accepts) {behind ahead : List Char}
    {found : Match} (matched : pattern.matchAt? behind ahead = some found) : ∀ c ∈ found.subject, accepts c := by
  rw [matchAt?, Option.map_eq_some_iff] at matched
  obtain ⟨stop, first, rfl⟩ := matched
  have marked : stop.Marked accepts :=
    places_marked reads (List.mem_of_mem_head? first) (by intro span member; cases member)
  intro c member
  rw [Match.subject, Match.group?] at member
  cases recorded : stop.groups.lookup .subject with
  | none => simp [recorded] at member
  | some span =>
      rw [recorded] at member
      obtain ⟨before, after, split, _⟩ := List.lookup_eq_some_iff.mp recorded
      exact marked span (by simp [split]) c member

theorem searchFrom_subject {pattern : Pattern} (reads : pattern.SubjectReads accepts) (s : List Char) :
    ∀ {behind : List Char} {found : Match}, pattern.searchFrom behind s = some found →
      ∀ c ∈ found.subject, accepts c := by
  induction s with
  | nil =>
      intro behind found matched
      exact matchAt_subject reads matched
  | cons c rest ih =>
      intro behind found matched
      rw [searchFrom] at matched
      split at matched
      · rename_i earlier here
        rw [← Option.some.inj matched]
        exact matchAt_subject reads here
      · exact ih matched

theorem search_subject {pattern : Pattern} (reads : pattern.SubjectReads accepts) {s : List Char}
    {found : Match} (matched : pattern.search? s = some found) : ∀ c ∈ found.subject, accepts c :=
  searchFrom_subject reads s matched

def Place.Within (whole : List Char) (place : Place) : Prop :=
  whole = place.behind.reverse ++ place.ahead ∧
    ∀ label span, (label, span) ∈ place.groups → ∃ front, whole = front ++ (span.text ++ span.rest)

theorem within_advance {whole : List Char} {place : Place} {c : Char} {rest : List Char}
    (ahead : place.ahead = c :: rest) (within : place.Within whole) : (place.advance c rest).Within whole :=
  ⟨by simpa [Place.advance, ahead] using within.1, within.2⟩

theorem within_record {whole : List Char} {start stop : Place} (label : Group) (within : stop.Within whole) :
    (start.record label stop).Within whole := by
  refine ⟨within.1, ?_⟩
  intro other span member
  rcases List.mem_cons.mp member with same | member
  · obtain ⟨rfl, rfl⟩ := Prod.mk.inj same
    refine ⟨(stop.behind.drop (stop.used - start.used)).reverse, ?_⟩
    rw [Span.text, ← List.append_assoc, ← List.reverse_append, List.take_append_drop]
    exact within.1
  · exact within.2 other span member

theorem matchAt_split {pattern : Pattern} {behind ahead : List Char} {found : Match}
    (matched : pattern.matchAt? behind ahead = some found) :
    ∃ front, behind.reverse ++ ahead = front ++ (found.subject ++ found.afterSubject) := by
  let whole := behind.reverse ++ ahead
  rw [matchAt?, Option.map_eq_some_iff] at matched
  obtain ⟨stop, first, rfl⟩ := matched
  have chained : Chained fun start stop : Place => start.Within whole → stop.Within whole :=
    ⟨fun _ => id, fun front back => back ∘ front⟩
  have within : stop.Within whole :=
    places_related chained (fun _ _ _ _ _ ahead _ => within_advance ahead)
      (fun label _ _ _ _ _ kept held => within_record label (kept held)) pattern (reads_any pattern) _ stop
      (List.mem_of_mem_head? first) ⟨rfl, by simp⟩
  rw [Match.subject, Match.afterSubject, Match.group?]
  cases recorded : stop.groups.lookup .subject with
  | none => exact ⟨whole, by simp [whole]⟩
  | some span =>
      obtain ⟨before, after, split, _⟩ := List.lookup_eq_some_iff.mp recorded
      exact within.2 .subject span (by simp [split])

theorem searchFrom_split {pattern : Pattern} (s : List Char) : ∀ {behind : List Char} {found : Match},
    pattern.searchFrom behind s = some found →
      ∃ front, behind.reverse ++ s = front ++ (found.subject ++ found.afterSubject) := by
  induction s with
  | nil => exact fun matched => matchAt_split matched
  | cons c rest ih =>
      intro behind found matched
      rw [searchFrom] at matched
      split at matched
      · rename_i earlier here
        rw [← Option.some.inj matched]
        exact matchAt_split here
      · simpa using ih matched

theorem search_split {pattern : Pattern} {s : List Char} {found : Match} (matched : pattern.search? s = some found) :
    ∃ front, s = front ++ (found.subject ++ found.afterSubject) :=
  searchFrom_split s matched

end FlowAtlas.Pattern
