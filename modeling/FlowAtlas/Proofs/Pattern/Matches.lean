import FlowAtlas.Pattern.Caseless
import FlowAtlas.Proofs.Pattern.Spelling
import Mathlib.Data.List.TakeWhile

namespace FlowAtlas.Pattern

def Place.along (place : Place) (text rest : List Char) : Place :=
  { place with behind := text.reverse ++ place.behind, ahead := rest, used := place.used + text.length }

theorem Place.along_advance (place : Place) (c : Char) (text rest more : List Char) :
    (place.advance c more).along text rest = place.along (c :: text) rest := by
  simp [Place.along, Place.advance, Nat.add_assoc, Nat.add_comm 1]

theorem Place.since_along (place : Place) (text rest : List Char) : place.since (place.along text rest) = text := by
  simp [Place.since, Place.along]

theorem runs_flatMap {α : Type} {accepts : Char → Bool} {next : Place → List α}
    (stuck : ∀ place c rest, place.ahead = c :: rest → accepts c = true → next place = []) (s : List Char) :
    ∀ (place : Place) (nearer : List Place), place.ahead = s →
      (runs accepts place nearer s).flatMap next =
        next (place.along (s.takeWhile accepts) (s.dropWhile accepts)) ++ nearer.flatMap next := by
  induction s with
  | nil =>
      intro place nearer ahead
      obtain ⟨behind, ahead, used, groups⟩ := place
      subst ahead
      rfl
  | cons c rest ih =>
      intro place nearer ahead
      rw [runs]
      by_cases accepted : accepts c = true
      · rw [if_pos accepted, ih _ _ rfl, List.flatMap_cons, stuck place c rest ahead accepted, Place.along_advance,
          List.takeWhile_cons_of_pos accepted, List.dropWhile_cons_of_pos accepted, List.nil_append]
      · obtain ⟨behind, ahead, used, groups⟩ := place
        subst ahead
        simp [accepted, Place.along]

theorem head?_runs {accepts : Char → Bool} (s : List Char) : ∀ (place : Place) (nearer : List Place), place.ahead = s →
    (runs accepts place nearer s).head? = some (place.along (s.takeWhile accepts) (s.dropWhile accepts)) := by
  induction s with
  | nil =>
      intro place nearer ahead
      obtain ⟨behind, ahead, used, groups⟩ := place
      subst ahead
      rfl
  | cons c rest ih =>
      intro place nearer ahead
      rw [runs]
      split
      · rename_i accepted
        rw [ih _ _ rfl, Place.along_advance, List.takeWhile_cons_of_pos accepted, List.dropWhile_cons_of_pos accepted]
      · rename_i refused
        obtain ⟨behind, ahead, used, groups⟩ := place
        subst ahead
        simp [refused, Place.along]

theorem Apart.since {text : List Char} {start stop : Place} (apart : Apart text start stop) :
    start.since stop = text := by
  rw [Place.since, apart.behind, apart.used, Nat.add_sub_cancel_left, List.take_left' List.length_reverse,
    List.reverse_reverse]

theorem reads_ne {mark : Char} {pattern : Pattern} (refused : pattern.Each (fun p => p mark = false) fun _ _ => True) :
    pattern.Reads (· ≠ mark) := by
  induction pattern with
  | seq _ _ front back | either _ _ front back => exact ⟨front refused.1, back refused.2⟩
  | many _ ih => exact ih refused
  | group _ _ ih => exact ⟨trivial, ih refused.2⟩
  | one p | run p | briefRun p =>
      intro c accepted same
      rw [same, refused] at accepted
      cases accepted
  | _ => trivial

theorem spells_reads {accepts : Char → Prop} {pattern : Pattern} (reads : pattern.Reads accepts) :
    ∀ {s : List Char}, pattern.Spells s → ∀ c ∈ s, accepts c := by
  induction pattern with
  | one p =>
      rintro _ ⟨d, accepted, rfl⟩ c member
      exact List.mem_singleton.mp member ▸ reads d accepted
  | seq first second front back =>
      rintro _ ⟨text, more, spelled, further, rfl⟩ c member
      rcases List.mem_append.mp member with early | late
      · exact front reads.1 spelled c early
      · exact back reads.2 further c late
  | either first second front back =>
      intro s spelled c member
      rcases spelled with spelled | spelled
      · exact front reads.1 spelled c member
      · exact back reads.2 spelled c member
  | run p | briefRun p => exact fun spelled c member => reads c (spelled c member)
  | many body ih =>
      rintro _ ⟨pieces, spelled, rfl⟩ c member
      obtain ⟨piece, among, held⟩ := List.mem_flatten.mp member
      exact ih reads (spelled piece among) c held
  | group label body ih => exact fun spelled => ih reads.2 spelled
  | empty | unlessAhead | unlessBehind | atStart | atEnd | wordEdge =>
      rintro _ rfl c member
      cases member

section single

variable {pattern : Pattern} {behind ahead : List Char} {found : Match}

theorem matchAt_spelled (matched : pattern.matchAt? behind ahead = some found) : pattern.Spells found.text := by
  rw [matchAt?, Option.map_eq_some_iff] at matched
  obtain ⟨stop, first, rfl⟩ := matched
  obtain ⟨text, spelled, apart⟩ := places_spell _ _ _ (List.mem_of_mem_head? first)
  exact apart.since.symm ▸ spelled

theorem matchAt_reads {accepts : Char → Prop} (reads : pattern.Reads accepts)
    (matched : pattern.matchAt? behind ahead = some found) : ∀ c ∈ found.text, accepts c :=
  spells_reads reads (matchAt_spelled matched)

/-- A match of a pattern that ends in the test for one stops at an edge of a word. -/
theorem matchAt_edge {parts : List Pattern}
    (matched : (inOrder (parts ++ [wordEdge])).matchAt? behind ahead = some found) :
    ((found.text.reverse ++ behind).head?.any Text.isWord) ≠ (found.rest.head?.any Text.isWord) := by
  rw [matchAt?, Option.map_eq_some_iff] at matched
  obtain ⟨stop, first, rfl⟩ := matched
  obtain ⟨middle, reached, tested⟩ := mem_inOrder_append.mp (List.mem_of_mem_head? first)
  obtain ⟨rfl, edge⟩ := mem_wordEdge.mp tested
  obtain ⟨text, -, apart⟩ := places_spell _ _ _ reached
  rw [Place.isWordEdge, apart.behind, bne_iff_ne] at edge
  dsimp only
  rwa [apart.since]

theorem matchAt_either (first second : Pattern) (behind ahead : List Char) :
    (either first second).matchAt? behind ahead =
      (first.matchAt? behind ahead).or (second.matchAt? behind ahead) := by
  rw [matchAt?, matchAt?, matchAt?, places, List.head?_append]
  cases (first.places { behind, ahead }).head? <;> rfl

theorem matchAt_anyOf (choices : List Pattern) (behind ahead : List Char) :
    (anyOf choices).matchAt? behind ahead = choices.findSome? (·.matchAt? behind ahead) := by
  induction choices with
  | nil => rfl
  | cons first rest ih =>
      cases rest with
      | nil => simp [anyOf]
      | cons second others =>
          have split : anyOf (first :: second :: others) = either first (anyOf (second :: others)) := rfl
          rw [split, matchAt_either, ih, List.findSome?_cons (a := first)]
          cases first.matchAt? behind ahead <;> rfl

theorem matchAt_run1 (accepts : Char → Bool) (behind : List Char) (c : Char) (rest : List Char) :
    (run1 accepts).matchAt? behind (c :: rest) = if accepts c then
      some ⟨behind, (c :: rest).takeWhile accepts, (c :: rest).dropWhile accepts, []⟩ else none := by
  by_cases accepted : accepts c = true
  · have read : (run1 accepts).places { behind, ahead := c :: rest } =
        runs accepts (Place.advance { behind, ahead := c :: rest } c rest) [] rest := by
      simp [run1, places, accepted, Place.advance]
    rw [matchAt?, read, head?_runs rest _ _ rfl, if_pos accepted, Place.along_advance, Option.map_some,
      Place.since_along, List.takeWhile_cons_of_pos accepted, List.dropWhile_cons_of_pos accepted]
    rfl
  · simp [matchAt?, run1, places, accepted]

theorem matchAt_greedy {front : Pattern} {accepts : Char → Bool}
    (matched : (seq front (run1 accepts)).matchAt? behind ahead = some found) : found.rest.head?.any accepts = false := by
  rw [matchAt?, Option.map_eq_some_iff] at matched
  rcases matched with ⟨stop, first, rfl⟩
  rw [places, List.head?_flatMap] at first
  rcases List.exists_of_findSome?_eq_some first with ⟨middle, -, reached⟩
  rw [run1, places, List.head?_flatMap] at reached
  rcases List.exists_of_findSome?_eq_some reached with ⟨later, -, read⟩
  rw [places, head?_runs _ _ _ rfl] at read
  have stops := List.head?_dropWhile_not accepts later.ahead
  rw [← Option.some.inj read, Place.along]
  cases ends : (later.ahead.dropWhile accepts).head? with
  | none => rfl
  | some d => simpa [ends] using stops

/-- The match that is found lies somewhere in the text, and none begins in front of it. -/
theorem searchFrom_leftmost (s : List Char) : ∀ {behind : List Char}, pattern.searchFrom behind s = some found →
    ∃ front back, s = front ++ back ∧ pattern.matchAt? (front.reverse ++ behind) back = some found ∧
      ∀ early late, s = early ++ late → early.length < front.length →
        pattern.matchAt? (early.reverse ++ behind) late = none := by
  induction s with
  | nil => exact fun matched => ⟨[], [], rfl, matched, fun _ _ _ shorter => absurd shorter (Nat.not_lt_zero _)⟩
  | cons c rest ih =>
      intro behind matched
      rw [searchFrom] at matched
      split at matched
      · rename_i earlier here
        exact ⟨[], c :: rest, rfl, here.trans matched, fun _ _ _ shorter => absurd shorter (Nat.not_lt_zero _)⟩
      · rename_i unmatched
        obtain ⟨front, back, rfl, later, first⟩ := ih matched
        refine ⟨c :: front, back, rfl, by simpa using later, ?_⟩
        intro early late split shorter
        cases early with
        | nil =>
            rw [List.nil_append] at split
            exact split ▸ unmatched
        | cons d early =>
            obtain ⟨rfl, tails⟩ := List.cons.inj split
            simpa using first early late tails (Nat.lt_of_succ_lt_succ shorter)

end single

section edges

theorem takeWhile_append_iff {p : Char → Bool} {text : List Char} (tail : List Char) (all : ∀ c ∈ text, p c = true) :
    (text ++ tail).takeWhile p = text ↔ tail.head?.any p = false := by
  rw [List.takeWhile_append_of_pos all, List.append_right_eq_self]
  cases tail with
  | nil => simp
  | cons d tail => simp [List.takeWhile_cons]

theorem isWordEdge_cons {c : Char} (word : Text.isWord c = true) (behind rest : List Char) :
    Place.isWordEdge { behind, ahead := c :: rest } = !behind.head?.any Text.isWord := by
  rw [Place.isWordEdge, List.head?_cons, Option.any_some, word]
  cases behind.head?.any Text.isWord <;> rfl

theorem isEmpty_oneOf (choices : String) (place : Place) :
    ((oneOf choices).places place).isEmpty = !place.ahead.head?.any choices.toList.contains := by
  obtain ⟨behind, ahead, used, groups⟩ := place
  rw [oneOf, places]
  cases ahead with
  | nil => rfl
  | cons c rest =>
      dsimp only [List.head?_cons, Option.any_some]
      split
      · rename_i accepted
        rw [accepted]
        rfl
      · rename_i refused
        rw [Bool.eq_false_iff.mpr refused]
        rfl

end edges

section literals

theorem places_inOrder_cons (first : Pattern) (rest : List Pattern) (place : Place) :
    (inOrder (first :: rest)).places place = (first.places place).flatMap (inOrder rest).places := by
  cases rest with
  | nil => exact (List.flatMap_singleton' _).symm
  | cons second others => rfl

theorem places_char (c : Char) (place : Place) : (char c).places place =
    if place.ahead.head? = some c then [place.advance c place.ahead.tail] else [] := by
  rw [char, places]
  rcases place.ahead with _ | ⟨d, rest⟩
  · rfl
  · by_cases same : d = c <;> simp [same]

theorem places_literal (text : String) (place : Place) : (literal text).places place =
    if text.toList.isPrefixOf place.ahead then
      [place.along text.toList (place.ahead.drop text.toList.length)] else [] := by
  rw [literal]
  induction text.toList generalizing place with
  | nil => rfl
  | cons c chars ih =>
      rw [List.map_cons, places_inOrder_cons, places_char]
      rcases ahead : place.ahead with _ | ⟨d, rest⟩
      · rfl
      · by_cases same : d = c
        · subst same
          rw [List.head?_cons, if_pos rfl, List.flatMap_singleton, ih, Place.along_advance]
          simp [Place.advance]
        · rw [if_neg (by simpa using same), List.flatMap_nil, if_neg]
          simp [Ne.symm same]

theorem matchAt_literal (text : String) (behind ahead : List Char) : (literal text).matchAt? behind ahead =
    if text.toList.isPrefixOf ahead then some ⟨behind, text.toList, ahead.drop text.toList.length, []⟩ else none := by
  rw [matchAt?, places_literal]
  split
  · rw [List.head?_cons, Option.map_some, Place.since_along]
    rfl
  · rfl

theorem matchAt_words (choices : List String) (behind ahead : List Char) :
    (words choices).matchAt? behind ahead = (choices.find? fun choice => choice.toList.isPrefixOf ahead).map
      fun choice => ⟨behind, choice.toList, ahead.drop choice.toList.length, []⟩ := by
  rw [words, matchAt_anyOf]
  induction choices with
  | nil => rfl
  | cons first rest ih =>
      rw [List.map_cons, List.findSome?_cons, List.find?_cons, matchAt_literal, ih]
      cases first.toList.isPrefixOf ahead <;> rfl

theorem spells_caseless {word : String} (single : ∀ c ∈ word.toList, caseVariants.lookup c = none) {s : List Char} :
    (caseless word).Spells s ↔ s.map Char.toLower = word.toList := by
  rw [caseless]
  generalize word.toList = chars at single
  induction chars generalizing s with
  | nil => simp
  | cons c chars ih =>
      obtain ⟨none, others⟩ := List.forall_mem_cons.mp single
      rw [List.map_cons, spells_inOrder_cons, List.map_eq_cons_iff]
      constructor
      · rintro ⟨_, back, ⟨d, accepted, rfl⟩, spelled, rfl⟩
        exact ⟨d, back, rfl, by simpa [none] using accepted, (ih others).mp spelled⟩
      · rintro ⟨d, back, rfl, lower, spelled⟩
        exact ⟨[d], back, ⟨d, by simp [lower], rfl⟩, (ih others).mpr spelled, rfl⟩

end literals

section all

variable {pattern : Pattern} {behind : List Char} {found : Match}

theorem findAllFrom_skip (pattern : Pattern) (s : List Char) : ∀ (skip : Nat) (behind : List Char),
    pattern.findAllFrom skip behind s =
      pattern.findAllFrom 0 ((s.take skip).reverse ++ behind) (s.drop skip) := by
  induction s with
  | nil => intro skip behind; simp [findAllFrom]
  | cons c rest ih =>
      intro skip behind
      cases skip with
      | zero => rfl
      | succ skip =>
          rw [findAllFrom, ih, List.take_succ_cons, List.drop_succ_cons, List.reverse_cons, List.append_assoc]
          rfl

theorem findAllFrom_match {c : Char} {rest : List Char} (given : found.text ≠ [])
    (matched : pattern.matchAt? behind (c :: rest) = some found) : pattern.findAllFrom 0 behind (c :: rest) =
      found :: pattern.findAllFrom 0 (found.text.reverse ++ behind) found.rest := by
  have parts := matchAt_text matched
  obtain ⟨d, text, begins⟩ := List.exists_cons_of_ne_nil given
  rw [begins, List.cons_append] at parts
  obtain ⟨rfl, rfl⟩ := List.cons.inj parts
  rw [findAllFrom, matched]
  dsimp only
  rw [findAllFrom_skip, begins]
  simp

theorem findAllFrom_none {c : Char} {rest : List Char} (unmatched : pattern.matchAt? behind (c :: rest) = none) :
    pattern.findAllFrom 0 behind (c :: rest) = pattern.findAllFrom 0 (c :: behind) rest := by
  rw [findAllFrom, unmatched]

theorem findAllFrom_passed {text : List Char} (rest : List Char) : ∀ {behind : List Char},
    (∀ front c back, text = front ++ c :: back →
      pattern.matchAt? (front.reverse ++ behind) (c :: (back ++ rest)) = none) →
    pattern.findAllFrom 0 behind (text ++ rest) = pattern.findAllFrom 0 (text.reverse ++ behind) rest := by
  induction text with
  | nil => exact fun _ => rfl
  | cons c text ih =>
      intro behind unmatched
      have later : ∀ front d back, text = front ++ d :: back →
          pattern.matchAt? (front.reverse ++ (c :: behind)) (d :: (back ++ rest)) = none := by
        intro front d back split
        simpa using unmatched (c :: front) d back (congrArg (c :: ·) split)
      have here : pattern.matchAt? behind (c :: (text ++ rest)) = none := unmatched [] c text rfl
      rw [List.cons_append, findAllFrom_none here, ih later, List.reverse_cons, List.append_assoc,
        List.singleton_append]

theorem matchAt_behind {ahead : List Char} (matched : pattern.matchAt? behind ahead = some found) :
    found.behind = behind := by
  rw [matchAt?, Option.map_eq_some_iff] at matched
  obtain ⟨stop, -, rfl⟩ := matched
  rfl

theorem matchAt_shorter {s : List Char} (matched : pattern.matchAt? behind s = some found) (given : found.text ≠ []) :
    found.rest.length < s.length := by
  have some := List.length_pos_iff.mpr given
  rw [matchAt_text matched, List.length_append]
  exact Nat.lt_add_of_pos_left some

theorem behind_of_mem_findAllFrom (s : List Char) : ∀ {skip : Nat} {behind : List Char},
    found ∈ pattern.findAllFrom skip behind s → behind.length + skip ≤ found.behind.length := by
  induction s with
  | nil =>
      intro skip behind member
      cases skip <;> cases member
  | cons c rest ih =>
      intro skip behind member
      cases skip with
      | succ skip =>
          have later := ih member
          rw [List.length_cons] at later
          omega
      | zero =>
          rw [findAllFrom] at member
          split at member
          · rename_i first matched
            rcases List.mem_cons.mp member with rfl | member
            · rw [matchAt_behind matched]
              exact Nat.le_refl _
            · have later := ih member
              rw [List.length_cons] at later
              omega
          · have later := ih member
            rw [List.length_cons] at later
            omega

theorem replaceFrom_filter {keep : Char → Bool} (reads : pattern.Reads fun c => keep c = false)
    (given : ¬pattern.Spells []) (s : List Char) : ∀ (skip : Nat) (behind : List Char),
      (∀ c ∈ s.take skip, keep c = false) →
        (pattern.replaceFrom (fun _ => []) skip behind s).filter keep = s.filter keep := by
  -- What a pattern reads is not kept, so nothing that is kept goes with its matches. By induction on the text; the
  -- characters still to be passed belong to a match.
  induction s with
  | nil =>
      intro skip behind _
      cases skip <;> rfl
  | cons c rest ih =>
      intro skip behind passed
      cases skip with
      | succ skip =>
          rw [List.take_succ_cons, List.forall_mem_cons] at passed
          rw [replaceFrom, ih skip _ passed.2, List.filter_cons_of_neg (by simp [passed.1])]
      | zero =>
          rw [replaceFrom]
          split
          · rename_i found matched
            have unkept := matchAt_reads reads matched
            have parts := matchAt_text matched
            have some : found.text ≠ [] := fun empty => given (empty ▸ matchAt_spelled matched)
            obtain ⟨d, text, begins⟩ := List.exists_cons_of_ne_nil some
            rw [begins, List.cons_append] at parts
            obtain ⟨rfl, rfl⟩ := List.cons.inj parts
            rw [begins, List.forall_mem_cons] at unkept
            rw [List.nil_append, ih, List.filter_cons_of_neg (by simp [unkept.1])]
            simpa [begins] using unkept.2
          · rw [List.filter_cons, List.filter_cons, ih 0 _ (by simp)]

end all

end FlowAtlas.Pattern
