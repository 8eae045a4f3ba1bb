import FlowAtlas.Naming.Words
import FlowAtlas.Proofs.Naming.Letters

namespace FlowAtlas

namespace Text

theorem lowerFrom_alphanum {s : List Char} (letters : ∀ c ∈ s, c.isAlphanum = true) : ∀ behind : List Char,
    lowerFrom behind s = s.map Char.toLower := by
  induction s with
  | nil => exact fun _ => rfl
  | cons c rest ih =>
      intro behind
      have letter : c.isAlphanum = true := letters c List.mem_cons_self
      have ascii : c.toNat < 128 := ascii_of_alphanum letter
      have plain : (c == capitalSigma) = false := by
        rw [beq_eq_false_iff_ne]
        intro same
        rw [same] at ascii
        exact absurd ascii (by decide)
      have later := ih (fun d member => letters d (List.mem_cons_of_mem c member)) (c :: behind)
      rw [lowerFrom, plain, later, lowerChar, if_pos ascii]
      rfl

theorem lower_alphanum {s : List Char} (letters : ∀ c ∈ s, c.isAlphanum = true) : lower s = s.map Char.toLower :=
  lowerFrom_alphanum letters []

end Text

namespace Naming

open Pattern Text

/-- Letters and digits without a hump: capitals, or small letters and digits behind a first character of any kind. -/
structure WordRun (run : List Char) : Prop where
  given : run ≠ []
  letters : ∀ c ∈ run, c.isAlphanum = true
  level : run.IsChain Level
  kind : (∀ c ∈ run, c.isUpper = true) ∨ ∀ c ∈ run.tail, isLowerOrDigit c = true

/-- The reasons for which a run goes no further into the rest of a name. -/
inductive Ends : List Char → List Char → Prop where
  | apart {run rest : List Char} (other : ∀ d ∈ rest.head?, d.isAlphanum = false) : Ends run rest
  | hump {front rest : List Char} {c d : Char} (small : isLowerOrDigit c = true) (upper : d.isUpper = true) :
      Ends (front ++ [c]) (d :: rest)
  | word {run rest : List Char} {d e : Char} (capitals : ∀ c ∈ run, c.isUpper = true) (upper : d.isUpper = true)
      (lower : e.isLower = true) : Ends run (d :: e :: rest)
  | number {run rest : List Char} {d : Char} (capitals : ∀ c ∈ run, c.isUpper = true) (several : 2 ≤ run.length)
      (digit : d.isDigit = true) : Ends run (d :: rest)

/-- A name and its runs, from left to right. What a run does not take up is no letter and no digit. -/
inductive Parted : List Char → List (List Char) → Prop where
  | nil : Parted [] []
  | pass {c : Char} {rest : List Char} {runs : List (List Char)} (other : c.isAlphanum = false)
      (parted : Parted rest runs) : Parted (c :: rest) runs
  | run {run rest : List Char} {runs : List (List Char)} (word : WordRun run) (ends : Ends run rest)
      (parted : Parted rest runs) : Parted (run ++ rest) (run :: runs)

theorem Parted.wordRun {name : List Char} {runs : List (List Char)} (parted : Parted name runs) :
    ∀ run ∈ runs, WordRun run := by
  induction parted with
  | nil => exact List.forall_mem_nil _
  | pass _ _ ih => exact ih
  | run word _ _ ih => exact List.forall_mem_cons.mpr ⟨word, ih⟩

theorem Parted.flatten {name : List Char} {runs : List (List Char)} (parted : Parted name runs) :
    runs.flatten = name.filter Char.isAlphanum := by
  induction parted with
  | nil => rfl
  | pass other _ ih => rw [ih, List.filter_cons_of_neg (by simp [other])]
  | run word _ _ ih => rw [List.flatten_cons, List.filter_append, ih, List.filter_eq_self.mpr word.letters]

section characters

variable {c : Char} {rest s : List Char}

theorem alphanum_iff : c.isAlphanum = true ↔ c.isUpper = true ∨ isLowerOrDigit c = true := by
  have kinds : c.isAlphanum = (c.isUpper || isLowerOrDigit c) := Bool.or_assoc c.isUpper c.isLower c.isDigit
  rw [kinds, Bool.or_eq_true]

theorem not_isUpper_of_small (small : isLowerOrDigit c = true) : c.isUpper = false := by
  have ascii : c.toNat < 128 := ascii_of_alphanum (alphanum_iff.mpr (Or.inr small))
  apply of_ascii (fun c => isLowerOrDigit c = true → c.isUpper = false) _ ascii small
  decide

theorem not_small_of_isUpper (upper : c.isUpper = true) : isLowerOrDigit c = false := by
  cases small : isLowerOrDigit c with
  | false => rfl
  | true =>
      rw [not_isUpper_of_small small] at upper
      cases upper

theorem not_isLower_of_isUpper (upper : c.isUpper = true) : c.isLower = false :=
  (Bool.or_eq_false_iff.mp (not_small_of_isUpper upper)).1

theorem level_of_small (small : ∀ d ∈ rest, isLowerOrDigit d = true) : (c :: rest).IsChain Level := by
  induction rest generalizing c with
  | nil => exact List.IsChain.singleton c
  | cons d rest ih =>
      apply List.IsChain.cons_cons
      · intro _
        exact not_isUpper_of_small (small d List.mem_cons_self)
      · exact ih fun e member => small e (List.mem_cons_of_mem d member)

theorem level_of_capitals (capitals : ∀ c ∈ s, c.isUpper = true) : s.IsChain Level := by
  induction s with
  | nil => exact List.IsChain.nil
  | cons c rest ih =>
      apply List.IsChain.cons (ih fun d member => capitals d (List.mem_cons_of_mem c member))
      intro d _ small
      have never : isLowerOrDigit c = false := not_small_of_isUpper (capitals c List.mem_cons_self)
      rw [isLowerOrDigit, small] at never
      cases never

end characters

section matching

def smallWord : Pattern := seq (optional (one Char.isUpper)) (run1 isLowerOrDigit)

def capitalWord : Pattern := seq (run1 Char.isUpper) (unlessAhead (one Char.isLower))

theorem smallWord_run {s : List Char} (spelled : smallWord.Spells s) : WordRun s := by
  rcases spelled with ⟨front, back, led, run, rfl⟩
  have small := spells_run1.mp run
  have letters : ∀ c ∈ back, c.isAlphanum = true := fun c member => alphanum_iff.mpr (Or.inr (small.2 c member))
  rcases led with ⟨c, upper, rfl⟩ | rfl
  · constructor
    case given => exact List.cons_ne_nil c back
    case letters => exact List.forall_mem_cons.mpr ⟨alphanum_iff.mpr (Or.inl upper), letters⟩
    case level => exact level_of_small small.2
    case kind => exact Or.inr small.2
  · rcases List.exists_cons_of_ne_nil small.1 with ⟨c, rest, rfl⟩
    have others : ∀ d ∈ rest, isLowerOrDigit d = true := fun d member => small.2 d (List.mem_cons_of_mem c member)
    constructor
    case given => exact List.cons_ne_nil c rest
    case letters => exact letters
    case level => exact level_of_small others
    case kind => exact Or.inr others

theorem capitalWord_spells {s : List Char} (spelled : capitalWord.Spells s) :
    s ≠ [] ∧ ∀ c ∈ s, c.isUpper = true := by
  rcases spelled with ⟨front, back, run, ahead, rfl⟩
  have nothing : back = [] := ahead
  rw [nothing, List.append_nil]
  exact spells_run1.mp run

theorem capitalWord_run {s : List Char} (spelled : capitalWord.Spells s) : WordRun s := by
  have capitals := capitalWord_spells spelled
  constructor
  case given => exact capitals.1
  case letters => exact fun c member => alphanum_iff.mpr (Or.inl (capitals.2 c member))
  case level => exact level_of_capitals capitals.2
  case kind => exact Or.inl capitals.2

variable {behind s : List Char} {found : Match}

theorem smallWord_ends (matched : smallWord.matchAt? behind s = some found) : Ends found.text found.rest := by
  rcases matchAt_spelled matched with ⟨front, back, -, run, split⟩
  have small := spells_run1.mp run
  rcases List.eq_nil_or_concat' back with rfl | ⟨inner, c, rfl⟩
  · exact absurd rfl small.1
  have stops := matchAt_greedy matched
  cases rest : found.rest with
  | nil => exact Ends.apart (by simp)
  | cons d more =>
      have large : isLowerOrDigit d = false := by simpa [rest] using stops
      cases letter : d.isAlphanum with
      | false => exact Ends.apart (by simpa using letter)
      | true =>
          have upper := (alphanum_iff.mp letter).resolve_right (by simp [large])
          rw [split, ← List.append_assoc]
          exact Ends.hump (small.2 c (by simp)) upper

def noSmallAhead : Pattern := unlessAhead (one Char.isLower)

theorem places_noSmallAhead (place : Place) :
    noSmallAhead.places place = if place.ahead.head?.any Char.isLower then [] else [place] := by
  rw [noSmallAhead, places, places]
  cases place.ahead with
  | nil => rfl
  | cons c rest => cases lower : c.isLower <;> simp [lower]

theorem first_capitals (s : List Char) : ∀ {place stop : Place} {nearer : List Place}, place.ahead = s →
    ((runs Char.isUpper place nearer s).flatMap noSmallAhead.places).head? = some stop →
      (s.head?.any Char.isLower = true ∧ (nearer.flatMap noSmallAhead.places).head? = some stop) ∨
        (∀ d ∈ stop.ahead.head?, d.isUpper = false ∧ d.isLower = false) ∨
        ∃ d e more, stop.ahead = d :: e :: more ∧ d.isUpper = true ∧ e.isLower = true := by
  -- Capitals are read to their end, or up to the last of them if a small letter follows. By induction on the text:
  -- the places of a run are asked in turn, the farthest first, whether a small letter is ahead.
  induction s with
  | nil =>
      intro place stop nearer ahead first
      have here : noSmallAhead.places place = [place] := by
        rw [places_noSmallAhead, ahead]
        rfl
      rw [runs, List.flatMap_cons, here, List.singleton_append, List.head?_cons, Option.some.injEq] at first
      right
      left
      rw [← first, ahead]
      intro d none
      cases none
  | cons c rest ih =>
      intro place stop nearer ahead first
      rw [runs] at first
      by_cases upper : c.isUpper = true
      · rw [if_pos upper] at first
        have here : noSmallAhead.places place = [place] := by
          rw [places_noSmallAhead, ahead]
          simp [not_isLower_of_isUpper upper]
        rcases ih rfl first with ⟨follows, nearest⟩ | later
        · rw [List.flatMap_cons, here, List.singleton_append, List.head?_cons, Option.some.injEq] at nearest
          rcases (Option.any_eq_true _ _).mp follows with ⟨e, begins, lower⟩
          rcases List.head?_eq_some_iff.mp begins with ⟨more, rfl⟩
          right
          right
          exact ⟨c, e, more, nearest ▸ ahead, upper, lower⟩
        · exact Or.inr later
      · rw [if_neg upper, List.flatMap_cons, places_noSmallAhead, ahead, List.head?_cons] at first
        cases lower : c.isLower with
        | true =>
            left
            simpa [lower] using first
        | false =>
            right
            left
            have here : place = stop := by simpa [lower] using first
            rw [← here, ahead]
            simp [upper, lower]

theorem smallWord_matches {text rest : List Char} (spelled : smallWord.Spells text) (behind : List Char) :
    smallWord.matchAt? behind (text ++ rest) ≠ none := by
  have plain : smallWord.Plain := by simp [smallWord]
  have start : Place.ahead { behind, ahead := text ++ rest } = text ++ rest := rfl
  rcases spells_reach plain spelled start with ⟨stop, reached, -⟩
  rw [← Option.isSome_iff_ne_none, matchAt_isSome]
  exact ⟨stop, reached⟩

theorem small_spelled {c : Char} (small : isLowerOrDigit c = true) : smallWord.Spells [c] := by
  have single : (run1 isLowerOrDigit).Spells [c] := by simpa using small
  exact ⟨[], [c], Or.inr rfl, single, rfl⟩

theorem pair_spelled {c d : Char} (upper : c.isUpper = true) (small : isLowerOrDigit d = true) :
    smallWord.Spells [c, d] := by
  have single : (run1 isLowerOrDigit).Spells [d] := by simpa using small
  exact ⟨[c], [d], Or.inl ⟨c, upper, rfl⟩, single, rfl⟩

theorem capitalWord_stops (matched : capitalWord.matchAt? behind s = some found) :
    (∀ d ∈ found.rest.head?, d.isUpper = false ∧ d.isLower = false) ∨
      ∃ d e more, found.rest = d :: e :: more ∧ d.isUpper = true ∧ e.isLower = true := by
  rw [matchAt?, Option.map_eq_some_iff] at matched
  rcases matched with ⟨stop, first, rfl⟩
  cases s with
  | nil => cases first
  | cons c rest =>
      by_cases upper : c.isUpper = true
      · let start : Place := { behind, ahead := c :: rest }
        have read : capitalWord.places start =
            (runs Char.isUpper (start.advance c rest) [] rest).flatMap noSmallAhead.places := by
          simp [start, capitalWord, noSmallAhead, run1, places, upper, Place.advance]
        rw [read] at first
        apply (first_capitals rest rfl first).resolve_left
        intro follows
        cases follows.2
      · have unread : capitalWord.places { behind, ahead := c :: rest } = [] := by
          simp [capitalWord, run1, places, upper]
        rw [unread] at first
        cases first

theorem capitalWord_ends (unmatched : smallWord.matchAt? behind s = none)
    (matched : capitalWord.matchAt? behind s = some found) : Ends found.text found.rest := by
  have capitals := capitalWord_spells (matchAt_spelled matched)
  have whole := matchAt_text matched
  rcases capitalWord_stops matched with other | ⟨d, e, more, rest, upper, lower⟩
  · cases rest : found.rest with
    | nil => exact Ends.apart (by simp)
    | cons d more =>
        have plain := other d (by rw [rest]; rfl)
        cases digit : d.isDigit with
        | false =>
            have none : d.isAlphanum = false := by
              rw [Bool.eq_false_iff, Ne, alphanum_iff, isLowerOrDigit]
              simp [plain, digit]
            exact Ends.apart (by simpa using none)
        | true =>
            apply Ends.number capitals.2 _ digit
            by_contra few
            rcases List.exists_cons_of_ne_nil capitals.1 with ⟨c, others, text⟩
            have alone : others = [] := by
              rw [text, List.length_cons] at few
              exact List.eq_nil_of_length_eq_zero (by omega)
            have upper : c.isUpper = true := capitals.2 c (by rw [text]; exact List.mem_cons_self)
            have small : isLowerOrDigit d = true := Bool.or_eq_true_iff.mpr (Or.inr digit)
            rw [text, alone, rest] at whole
            rw [whole] at unmatched
            exact smallWord_matches (pair_spelled upper small) behind unmatched
  · rw [rest]
    exact Ends.word capitals.2 upper lower

theorem matchAt_wordPattern (behind s : List Char) :
    wordPattern.matchAt? behind s = (smallWord.matchAt? behind s).or (capitalWord.matchAt? behind s) :=
  matchAt_either smallWord capitalWord behind s

theorem wordPattern_run (matched : wordPattern.matchAt? behind s = some found) :
    WordRun found.text ∧ Ends found.text found.rest := by
  rw [matchAt_wordPattern, Option.or_eq_some_iff] at matched
  rcases matched with small | ⟨unmatched, capital⟩
  · exact ⟨smallWord_run (matchAt_spelled small), smallWord_ends small⟩
  · exact ⟨capitalWord_run (matchAt_spelled capital), capitalWord_ends unmatched capital⟩

theorem capitalWord_matches {c : Char} {rest : List Char} (upper : c.isUpper = true)
    (apart : rest.head?.any Char.isLower = false) (behind : List Char) :
    capitalWord.matchAt? behind (c :: rest) ≠ none := by
  have capital : (run1 Char.isUpper).Spells [c] := by simpa using upper
  have start : Place.ahead { behind, ahead := c :: rest } = [c] ++ rest := rfl
  rcases spells_reach plain_run1 capital start with ⟨stop, reached, ahead⟩
  have passes : stop ∈ noSmallAhead.places stop := by
    rw [places_noSmallAhead, ahead, apart]
    exact List.mem_singleton_self stop
  rw [← Option.isSome_iff_ne_none, matchAt_isSome]
  exact ⟨stop, mem_seq.mpr ⟨stop, reached, passes⟩⟩

theorem wordPattern_matches {c : Char} (letter : c.isAlphanum = true) (behind rest : List Char) :
    wordPattern.matchAt? behind (c :: rest) ≠ none := by
  -- At every letter or digit a word begins that no earlier one takes up.
  rw [matchAt_wordPattern, Ne, Option.or_eq_none_iff]
  intro unmatched
  rcases alphanum_iff.mp letter with upper | small
  · cases rest with
    | nil => exact capitalWord_matches upper rfl behind unmatched.2
    | cons d more =>
        cases lower : d.isLower with
        | false => exact capitalWord_matches upper (by simpa using lower) behind unmatched.2
        | true =>
            have small : isLowerOrDigit d = true := Bool.or_eq_true_iff.mpr (Or.inl lower)
            exact smallWord_matches (pair_spelled upper small) behind unmatched.1
  · exact smallWord_matches (small_spelled small) behind unmatched.1

end matching

theorem parted_findAll (s : List Char) : ∀ behind : List Char,
    Parted s ((wordPattern.findAllFrom 0 behind s).map (·.text)) := by
  -- By induction on the length of the text: a match is a run, and where nothing matches there is no letter or digit.
  induction length : s.length using Nat.strongRecOn generalizing s with
  | ind n ih =>
      subst length
      intro behind
      cases s with
      | nil => exact Parted.nil
      | cons c rest =>
          cases matched : wordPattern.matchAt? behind (c :: rest) with
          | none =>
              have other : c.isAlphanum = false := by
                rw [Bool.eq_false_iff]
                intro letter
                exact wordPattern_matches letter behind rest matched
              rw [findAllFrom_none matched]
              exact Parted.pass other (ih rest.length (Nat.lt_succ_self _) rest rfl _)
          | some found =>
              have run := wordPattern_run matched
              have shorter := matchAt_shorter matched run.1.given
              have later := ih found.rest.length shorter found.rest rfl (found.text.reverse ++ behind)
              rw [findAllFrom_match run.1.given matched, matchAt_text matched, List.map_cons]
              exact Parted.run run.1 run.2 later

theorem toLower_alphanum {c : Char} (letter : c.isAlphanum = true) : isLowerOrDigit c.toLower = true := by
  apply of_ascii (fun c => c.isAlphanum = true → isLowerOrDigit c.toLower = true) _ (ascii_of_alphanum letter) letter
  decide

/-- The words of a name are its runs in lower case: they hold its letters and digits, all of them and in their order,
and each goes on as far as there is no reason to end it. -/
theorem words_parted (name : List Char) :
    (∀ word ∈ words name, word ≠ [] ∧ ∀ c ∈ word, c.isLower = true ∨ c.isDigit = true) ∧
      (words name).flatten = (name.filter Char.isAlphanum).map Char.toLower ∧
      ∃ runs, Parted name runs ∧ words name = runs.map (·.map Char.toLower) := by
  have parted : Parted name ((wordPattern.findAll name).map (·.text)) := parted_findAll name []
  have lowered : words name = ((wordPattern.findAll name).map (·.text)).map (·.map Char.toLower) := by
    rw [words, List.map_map]
    apply List.map_congr_left
    intro found member
    exact lower_alphanum (parted.wordRun found.text (List.mem_map_of_mem member)).letters
  refine ⟨?_, ?_, _, parted, lowered⟩
  · intro word listed
    rw [lowered] at listed
    rcases List.mem_map.mp listed with ⟨run, member, rfl⟩
    have word := parted.wordRun run member
    refine ⟨by simpa using word.given, ?_⟩
    intro c held
    rcases List.mem_map.mp held with ⟨d, member, rfl⟩
    exact Bool.or_eq_true_iff.mp (toLower_alphanum (word.letters d member))
  · rw [lowered, ← List.map_flatten, parted.flatten]

theorem words_parted_acronym :
    let name := "_onHTML5\u00c9Load2XMLName".toList
    words name = ["on".toList, "html".toList, "5".toList, "load2".toList, "xml".toList, "name".toList] ∧
      ("html".toList ≠ [] ∧ ∀ c ∈ "html".toList, c.isLower = true ∨ c.isDigit = true) ∧
      (words name).flatten = "onhtml5load2xmlname".toList ∧
      ∃ runs, Parted name runs ∧ words name = runs.map (·.map Char.toLower) := by
  intro name
  have found : words name = ["on".toList, "html".toList, "5".toList, "load2".toList, "xml".toList, "name".toList] := by
    decide +kernel
  have member : "html".toList ∈ words name := by
    rw [found]
    decide
  have parted := words_parted name
  exact ⟨found, parted.1 _ member, parted.2.1.trans (by decide), parted.2.2⟩

end Naming

end FlowAtlas
