import FlowAtlas.Extraction.Code
import FlowAtlas.Proofs.Pattern.Reading

namespace FlowAtlas.Extraction

open Pattern

def isQuote (c : Char) : Bool := c == doubleQuote || c == singleQuote || c == backQuote

def closing? (quote : Char) (escaped : Bool) : List Char → Option (List Char)
  | [] => none
  | c :: rest =>
    if escaped then if c == '\n' then none else closing? quote false rest
    else if c == quote then some rest
    else closing? quote (c == '\\') rest

def withoutLiterals (s : List Char) : List Char := stringLiteral.replace (fun _ => emptyLiteral) s

theorem quote_ne_backslash {quote : Char} (quoted : isQuote quote = true) : quote ≠ '\\' := by
  rintro rfl
  exact absurd quoted (by decide)

theorem closing_cons {quote c : Char} {escaped : Bool} {tail rest : List Char}
    (closed : closing? quote escaped (c :: tail) = some rest) :
    escaped = false ∧ c = quote ∧ tail = rest ∨
      ∃ next, closing? quote next tail = some rest ∧ ∀ s, closing? quote escaped (c :: s) = closing? quote next s := by
  rw [closing?] at closed
  split at closed
  · rename_i behindBackslash
    split at closed
    · cases closed
    · rename_i other
      exact Or.inr ⟨false, closed, fun s => by rw [closing?, if_pos behindBackslash, if_neg other]⟩
  · rename_i plain
    split at closed
    · rename_i same
      exact Or.inl ⟨by simpa using plain, eq_of_beq same, Option.some.inj closed⟩
    · rename_i other
      exact Or.inr ⟨c == '\\', closed, fun s => by rw [closing?, if_neg plain, if_neg other]⟩

theorem closing_split {quote : Char} (s : List Char) : ∀ {escaped : Bool} {rest : List Char},
    closing? quote escaped s = some rest →
      ∃ body, s = body ++ quote :: rest ∧ closing? quote escaped (body ++ [quote]) = some [] := by
  induction s with
  | nil => intro escaped rest closed; simp [closing?] at closed
  | cons c tail ih =>
      intro escaped rest closed
      rcases closing_cons closed with ⟨rfl, rfl, rfl⟩ | ⟨next, closed, goesOn⟩
      · exact ⟨[], rfl, by simp [closing?]⟩
      · obtain ⟨body, rfl, ends⟩ := ih closed
        exact ⟨c :: body, rfl, (goesOn _).trans ends⟩

theorem closing_append {quote : Char} (s rest : List Char) : ∀ {escaped : Bool} {further : List Char},
    closing? quote escaped s = some further → closing? quote escaped (s ++ rest) = some (further ++ rest) := by
  induction s with
  | nil => intro escaped further closed; simp [closing?] at closed
  | cons c tail ih =>
      intro escaped further closed
      rcases closing_cons closed with ⟨rfl, rfl, rfl⟩ | ⟨next, closed, goesOn⟩
      · simp [closing?]
      · rw [List.cons_append, goesOn]
        exact ih closed

section matching

variable {quote : Char}

def literalStep (quote : Char) : Pattern :=
  either (seq (char '\\') (one (· != '\n'))) (one fun c => c != quote && c != '\\')

def behindQuote (quote : Char) (stops : List Place) : List (List Char) :=
  (stops.flatMap (char quote).places).map (·.ahead)

theorem behindQuote_cons_quote {place : Place} {rest : List Char} (ahead : place.ahead = quote :: rest)
    (fewer : List Place) : behindQuote quote (place :: fewer) = rest :: behindQuote quote fewer := by
  simp [behindQuote, char, places, ahead, Place.advance]

theorem behindQuote_cons {place : Place} (other : place.ahead.head? ≠ some quote) (fewer : List Place) :
    behindQuote quote (place :: fewer) = behindQuote quote fewer := by
  have none : (char quote).places place = [] := by
    rw [char, places]
    split
    · rename_i c rest ahead
      have differs : c ≠ quote := by simpa [ahead] using other
      simp [differs]
    · rfl
  rw [behindQuote, List.flatMap_cons, none]
  rfl

theorem literalStep_cases (quoted : isQuote quote = true) (place : Place) :
    (∃ rest, place.ahead = quote :: rest ∧ (literalStep quote).places place = []) ∨
      place.ahead.head? ≠ some quote ∧
        ((literalStep quote).places place = [] ∧ closing? quote false place.ahead = none ∨
          ∃ next, (literalStep quote).places place = [next] ∧ next.ahead.length < place.ahead.length ∧
            closing? quote false place.ahead = closing? quote false next.ahead) := by
  have escape := quote_ne_backslash quoted
  rcases ahead : place.ahead with _ | ⟨c, rest⟩
  · right
    simp [literalStep, places, char, ahead, closing?]
  · by_cases closes : c = quote
    · left
      simp [literalStep, places, char, ahead, closes, escape]
    · right
      refine ⟨by simpa using closes, ?_⟩
      by_cases escapes : c = '\\'
      · subst escapes
        rcases rest with _ | ⟨d, further⟩
        · simp [literalStep, places, char, ahead, Place.advance, closing?, closes]
        · by_cases feed : d = '\n'
          · left
            simp [literalStep, places, char, ahead, Place.advance, closing?, closes, feed]
          · right
            refine ⟨(place.advance '\\' (d :: further)).advance d further, ?_, ?_, ?_⟩
            · simp [literalStep, places, char, ahead, Place.advance, feed]
            · simp only [Place.advance, List.length_cons]
              omega
            · simp [closing?, closes, feed, Place.advance]
      · right
        have plain : (c == '\\') = false := by simpa using escapes
        refine ⟨place.advance c rest, ?_, Nat.lt_succ_self _, ?_⟩
        · simp [literalStep, places, char, ahead, closes, escapes]
        · simp [closing?, closes, plain, Place.advance]

theorem rounds_closing (quoted : isQuote quote = true) (limit : Nat) :
    ∀ (place : Place) (fewer : List Place), place.ahead.length ≤ limit →
      behindQuote quote (rounds (literalStep quote).places limit place fewer) =
        (closing? quote false place.ahead).toList ++ behindQuote quote fewer := by
  -- Of all numbers of steps only the greatest is followed by a quote.
  induction limit with
  | zero =>
      intro place fewer bound
      have ended : place.ahead = [] := List.length_eq_zero_iff.mp (Nat.le_zero.mp bound)
      rw [rounds, behindQuote_cons (by simp [ended]), ended]
      rfl
  | succ limit ih =>
      intro place fewer bound
      rw [rounds]
      rcases literalStep_cases quoted place with ⟨rest, ahead, step⟩ | ⟨other, stops | goes⟩
      · rw [step, List.foldr_nil, behindQuote_cons_quote ahead, ahead]
        simp [closing?]
      · rw [stops.1, List.foldr_nil, behindQuote_cons other, stops.2]
        rfl
      · obtain ⟨next, step, shorter, closing⟩ := goes
        rw [step, List.foldr_cons, List.foldr_nil, ih _ _ (by omega), behindQuote_cons other, closing]

theorem quotedBy_places (quoted : isQuote quote = true) (place : Place) :
    ((quotedBy quote).places place).map (·.ahead) =
      match place.ahead with
      | [] => []
      | c :: rest => if c == quote then (closing? quote false rest).toList else [] := by
  have body : ∀ next : Place, ((seq (many (literalStep quote)) (char quote)).places next).map (·.ahead) =
      (closing? quote false next.ahead).toList := by
    intro next
    have rounds := rounds_closing quoted next.ahead.length next [] (Nat.le_refl _)
    rwa [behindQuote, behindQuote, List.flatMap_nil, List.map_nil, List.append_nil] at rounds
  have whole : (quotedBy quote).places place =
      ((char quote).places place).flatMap (seq (many (literalStep quote)) (char quote)).places := rfl
  rw [whole]
  rcases ahead : place.ahead with _ | ⟨c, rest⟩
  · simp [char, places, ahead]
  · by_cases opens : c = quote
    · have start : (char quote).places place = [place.advance c rest] := by simp [char, places, ahead, opens]
      rw [start, List.flatMap_singleton, body]
      simp [opens, Place.advance]
    · simp [char, places, ahead, opens]

theorem stringLiteral_places (place : Place) :
    (stringLiteral.places place).map (·.ahead) =
      match place.ahead with
      | [] => []
      | c :: rest => if isQuote c then (closing? c false rest).toList else [] := by
  have split : (stringLiteral.places place).map (·.ahead) =
      ((quotedBy doubleQuote).places place).map (·.ahead) ++
        (((quotedBy singleQuote).places place).map (·.ahead) ++
          ((quotedBy backQuote).places place).map (·.ahead)) := by
    rw [← List.map_append, ← List.map_append]
    rfl
  rw [split, quotedBy_places (by decide), quotedBy_places (by decide), quotedBy_places (by decide)]
  rcases place.ahead with _ | ⟨c, rest⟩
  · rfl
  · by_cases double : c = doubleQuote
    · subst double
      simp [isQuote, doubleQuote, singleQuote, backQuote]
    · by_cases single : c = singleQuote
      · subst single
        simp [isQuote, doubleQuote, singleQuote, backQuote]
      · by_cases back : c = backQuote
        · subst back
          simp [isQuote, doubleQuote, singleQuote, backQuote]
        · simp [isQuote, double, single, back]

theorem stringLiteral_match (behind : List Char) (c : Char) (rest : List Char) :
    (stringLiteral.matchAt? behind (c :: rest)).map (·.rest) =
      if isQuote c then closing? c false rest else none := by
  have found := congrArg List.head? (stringLiteral_places { behind, ahead := c :: rest })
  rw [List.head?_map] at found
  rw [matchAt?, Option.map_map]
  refine found.trans ?_
  dsimp only
  split
  · cases closing? c false rest <;> rfl
  · rfl

end matching

def literalEnd? : List Char → Option (List Char)
  | [] => none
  | c :: rest => if isQuote c then closing? c false rest else none

theorem literalEnd_suffix {c : Char} {rest further : List Char} (ends : literalEnd? (c :: rest) = some further) :
    ∃ body, rest = body ++ further := by
  rw [literalEnd?] at ends
  split at ends
  · obtain ⟨body, rfl, _⟩ := closing_split rest ends
    exact ⟨body ++ [c], by simp⟩
  · cases ends

theorem replaceFrom_cons (behind : List Char) (c : Char) (rest : List Char) :
    stringLiteral.replaceFrom (fun _ => emptyLiteral) 0 behind (c :: rest) =
      match literalEnd? (c :: rest) with
      | some further => emptyLiteral ++
          stringLiteral.replaceFrom (fun _ => emptyLiteral) (rest.length - further.length) (c :: behind) rest
      | none => c :: stringLiteral.replaceFrom (fun _ => emptyLiteral) 0 (c :: behind) rest := by
  have same : (stringLiteral.matchAt? behind (c :: rest)).map (·.rest) = literalEnd? (c :: rest) :=
    stringLiteral_match behind c rest
  rw [replaceFrom]
  cases matched : stringLiteral.matchAt? behind (c :: rest) with
  | none =>
      rw [matched] at same
      rw [← same]
      rfl
  | some found =>
      rw [matched] at same
      have parts := congrArg List.length (matchAt_text matched)
      rw [List.length_append, List.length_cons] at parts
      have read : found.text.length - 1 = rest.length - found.rest.length := by omega
      rw [← same]
      dsimp only [Option.map_some]
      rw [read]

theorem replaceFrom_literals (s : List Char) : ∀ (behind : List Char) (skip : Nat),
    stringLiteral.replaceFrom (fun _ => emptyLiteral) skip behind s = withoutLiterals (s.drop skip) := by
  induction s with
  | nil => intro behind skip; simp [replaceFrom, withoutLiterals, replace]
  | cons c rest ih =>
      intro behind skip
      cases skip with
      | succ skip => rw [replaceFrom, ih, List.drop_succ_cons]
      | zero =>
          rw [List.drop_zero, withoutLiterals, replace, replaceFrom_cons, replaceFrom_cons]
          simp only [ih]

theorem withoutLiterals_nil : withoutLiterals [] = [] := rfl

theorem withoutLiterals_cons (c : Char) (rest : List Char) :
    withoutLiterals (c :: rest) =
      match literalEnd? (c :: rest) with
      | some further => emptyLiteral ++ withoutLiterals further
      | none => c :: withoutLiterals rest := by
  rw [withoutLiterals, replace, replaceFrom_cons]
  cases ends : literalEnd? (c :: rest) with
  | none => simp only [replaceFrom_literals, List.drop_zero]
  | some further =>
      obtain ⟨body, rfl⟩ := literalEnd_suffix ends
      have dropped : (body ++ further).drop ((body ++ further).length - further.length) = further := by
        rw [List.length_append, Nat.add_sub_cancel, List.drop_left]
      simp only [replaceFrom_literals, dropped]

/-- A text is read literal by literal, and one character at a time between them. -/
@[elab_as_elim]
theorem literals_induction {motive : List Char → Prop} (nil : motive [])
    (literal : ∀ c rest further, literalEnd? (c :: rest) = some further → motive further → motive (c :: rest))
    (between : ∀ c rest, literalEnd? (c :: rest) = none → motive rest → motive (c :: rest)) (s : List Char) :
    motive s := by
  induction length : s.length using Nat.strongRecOn generalizing s with
  | ind n ih =>
    cases s with
    | nil => exact nil
    | cons c rest =>
        rw [List.length_cons] at length
        cases ends : literalEnd? (c :: rest) with
        | none => exact between c rest ends (ih rest.length (by omega) rest rfl)
        | some further =>
            obtain ⟨body, rfl⟩ := literalEnd_suffix ends
            rw [List.length_append] at length
            exact literal c _ further ends (ih further.length (by omega) further rfl)

theorem withoutLiterals_literal {c : Char} {rest further : List Char}
    (ends : literalEnd? (c :: rest) = some further) :
    withoutLiterals (c :: rest) = doubleQuote :: doubleQuote :: withoutLiterals further := by
  rw [withoutLiterals_cons, ends]
  rfl

theorem withoutLiterals_between {c : Char} {rest : List Char} (ends : literalEnd? (c :: rest) = none) :
    withoutLiterals (c :: rest) = c :: withoutLiterals rest := by
  rw [withoutLiterals_cons, ends]

theorem isQuote_of_literalEnd {c : Char} {rest further : List Char}
    (ends : literalEnd? (c :: rest) = some further) : isQuote c = true := by
  by_contra other
  simp [literalEnd?, other] at ends

theorem withoutLiterals_plain {c : Char} (plain : isQuote c = false) (rest : List Char) :
    withoutLiterals (c :: rest) = c :: withoutLiterals rest :=
  withoutLiterals_between (by simp [literalEnd?, plain])

theorem mem_withoutLiterals {c : Char} (plain : isQuote c = false) {s : List Char} (member : c ∈ withoutLiterals s) :
    c ∈ s := by
  induction s using literals_induction with
  | nil => exact member
  | literal quote rest further ends ih =>
      obtain ⟨body, rfl⟩ := literalEnd_suffix ends
      rw [withoutLiterals_literal ends] at member
      have other : c ≠ doubleQuote := by
        rintro rfl
        exact absurd plain (by decide)
      have later : c ∈ withoutLiterals further := by simpa [other] using member
      exact List.mem_cons_of_mem _ (List.mem_append_right _ (ih later))
  | between d rest ends ih =>
      rw [withoutLiterals_between ends] at member
      rcases List.mem_cons.mp member with rfl | member
      · exact List.mem_cons_self
      · exact List.mem_cons_of_mem _ (ih member)

end FlowAtlas.Extraction
