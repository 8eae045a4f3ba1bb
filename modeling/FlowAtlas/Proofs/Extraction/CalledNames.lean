import FlowAtlas.Extraction.Findings
import FlowAtlas.Proofs.Extraction.DeclaredNames
import FlowAtlas.Proofs.Pattern.Matches
import FlowAtlas.Proofs.Text.Words

namespace FlowAtlas

namespace Extraction

open Pattern

def startsName (c : Char) : Bool := c.isAlpha || c == '_'

def isCalled (s : List Char) : Bool := ((s.dropWhile Text.isWord).dropWhile Text.isBlank).head? == some '('

/-- The words of a text that are called; `inWord` says whether the text begins inside a word. -/
def calledWords (inWord : Bool) : List Char → List (List Char)
  | [] => []
  | c :: rest =>
    (if !inWord && startsName c && isCalled (c :: rest) then [(c :: rest).takeWhile Text.isWord] else []) ++
      calledWords (Text.isWord c) rest

theorem isWord_of_startsName {c : Char} (starts : startsName c = true) : Text.isWord c = true := by
  rcases Bool.or_eq_true_iff.mp starts with alpha | underscore
  · exact isWord_of_isAlpha alpha
  · rw [beq_iff_eq.mp underscore]
    decide

theorem paren_places (place : Place) :
    (char '(').places place =
      if place.ahead.head? == some '(' then [place.advance '(' place.ahead.tail] else [] := by
  rcases ahead : place.ahead with _ | ⟨d, more⟩
  · simp [char, places, ahead]
  · by_cases opens : d = '('
    · simp [char, places, ahead, opens]
    · simp [char, places, ahead, opens]

theorem blanks_paren_places (place : Place) :
    (seq blanks (char '(')).places place =
      (char '(').places (place.along (place.ahead.takeWhile Text.isBlank) (place.ahead.dropWhile Text.isBlank)) := by
  have stuck : ∀ place : Place, ∀ d more, place.ahead = d :: more → Text.isBlank d = true →
      (char '(').places place = [] := by
    intro place d more ahead blank
    rw [paren_places, ahead]
    refine if_neg ?_
    intro same
    rw [Option.some.inj (beq_iff_eq.mp same)] at blank
    exact absurd blank (by decide)
  have run := runs_flatMap stuck place.ahead place [] rfl
  rwa [List.flatMap_nil, List.append_nil] at run

theorem blanks_paren_places_word (place : Place) {d : Char} {more : List Char} (ahead : place.ahead = d :: more)
    (word : Text.isWord d = true) : (seq blanks (char '(')).places place = [] := by
  have notBlank : Text.isBlank d = false := by
    by_contra blank
    rw [Text.not_isWord_of_isBlank (Bool.not_eq_false _ ▸ blank)] at word
    cases word
  have other : d ≠ '(' := by
    rintro rfl
    exact absurd word (by decide)
  rw [blanks_paren_places, paren_places]
  simp [Place.along, ahead, notBlank, other]

theorem callForm_places (behind : List Char) (c : Char) (rest : List Char) :
    let s := c :: rest
    let name := s.takeWhile Text.isWord
    let blank := (s.dropWhile Text.isWord).takeWhile Text.isBlank
    let further := (s.dropWhile Text.isWord).dropWhile Text.isBlank
    callForm.places { behind, ahead := s } =
      if !behind.head?.any Text.isWord && startsName c && isCalled s then
        [{ behind := '(' :: (blank.reverse ++ (name.reverse ++ behind))
           ahead := further.tail
           used := name.length + blank.length + 1
           groups := [(.subject, ⟨name.reverse ++ behind, name.length, s.dropWhile Text.isWord⟩)] }]
      else [] := by
  intro s name blank further
  let start : Place := { behind, ahead := s }
  have stuck : ∀ place : Place, ∀ d more, place.ahead = d :: more → Text.isWord d = true →
      (seq blanks (char '(')).places (start.record .subject place) = [] :=
    fun place d more ahead word => blanks_paren_places_word (start.record .subject place) ahead word
  have whole : callForm.places start = if start.isWordEdge then
      (if startsName c then (runs Text.isWord (start.advance c rest) [] rest).flatMap fun place =>
        (seq blanks (char '(')).places (start.record .subject place) else []) else [] := by
    have parts : callForm = seq wordEdge (seq (group .subject (seq (one startsName) (run Text.isWord)))
        (seq blanks (char '('))) := rfl
    rw [parts, places, places]
    split
    · rw [List.flatMap_singleton, places, places, List.flatMap_map, places, places]
      dsimp only [start, s]
      split
      · rw [List.flatMap_singleton]
        rfl
      · rfl
    · rfl
  change callForm.places start = _
  by_cases starts : startsName c = true
  · have word := isWord_of_startsName starts
    have edge : start.isWordEdge = !behind.head?.any Text.isWord := by
      simp [Place.isWordEdge, start, s, word]
    rw [whole, edge, if_pos starts, runs_flatMap stuck rest _ [] rfl, blanks_paren_places, paren_places]
    have taken : name = c :: rest.takeWhile Text.isWord := List.takeWhile_cons_of_pos word
    have left : s.dropWhile Text.isWord = rest.dropWhile Text.isWord := List.dropWhile_cons_of_pos word
    cases behind.head?.any Text.isWord
    · by_cases called : isCalled s = true
      · have opens := called
        rw [isCalled, left] at opens
        simp [called, starts, opens, start, taken, left, blank, further, Place.record, Place.along, Place.advance,
          Nat.add_comm 1]
      · have other := called
        rw [isCalled, left] at other
        simp [called, other, start, Place.record, Place.along, Place.advance]
    · simp
  · rw [whole]
    simp [starts]

theorem callForm_match (behind : List Char) (c : Char) (rest : List Char) :
    let s := c :: rest
    let name := s.takeWhile Text.isWord
    let blank := (s.dropWhile Text.isWord).takeWhile Text.isBlank
    (callForm.matchAt? behind s).map (fun found => (found.subject, found.text.length)) =
      if !behind.head?.any Text.isWord && startsName c && isCalled s then
        some (name, name.length + blank.length + 1) else none := by
  intro s name blank
  rw [matchAt?, callForm_places]
  split
  · simp only [Match.subject, Match.group?, Span.text, Place.since, List.head?_cons, Option.map_some,
      List.lookup_cons_self, Option.elim_some, List.length_reverse, List.length_take, Nat.sub_zero,
      List.length_cons, List.length_append, Option.some.injEq, Prod.mk.injEq]
    dsimp only [name, blank, s]
    refine ⟨?_, by omega⟩
    rw [List.take_left' (List.length_reverse), List.reverse_reverse]
  · rfl

theorem calledWords_inside {word : List Char} (inside : ∀ c ∈ word, Text.isWord c = true) (rest : List Char) :
    calledWords true (word ++ rest) = calledWords true rest := by
  induction word with
  | nil => rfl
  | cons c word ih =>
      have held := inside c List.mem_cons_self
      rw [List.cons_append, calledWords, held, ih fun d member => inside d (List.mem_cons_of_mem _ member)]
      rfl

theorem calledWords_between {between : List Char} (outside : ∀ c ∈ between, Text.isWord c = false)
    (rest : List Char) : ∀ inWord, calledWords inWord (between ++ '(' :: rest) = calledWords false rest := by
  have silent : ∀ c, Text.isWord c = false → startsName c = false := by
    intro c other
    by_contra starts
    rw [isWord_of_startsName (Bool.not_eq_false _ ▸ starts)] at other
    cases other
  induction between with
  | nil =>
      intro inWord
      rw [List.nil_append, calledWords, silent '(' (by decide), Bool.and_false, Bool.false_and]
      rfl
  | cons c between ih =>
      intro inWord
      have other := outside c List.mem_cons_self
      rw [List.cons_append, calledWords, silent c other, Bool.and_false, Bool.false_and, other]
      exact ih (fun d member => outside d (List.mem_cons_of_mem _ member)) false

theorem calledWords_call {c : Char} {rest : List Char} (word : Text.isWord c = true)
    (called : isCalled (c :: rest) = true) : ∃ front more,
    rest = front ++ '(' :: more ∧
    ((c :: rest).takeWhile Text.isWord).length + (((c :: rest).dropWhile Text.isWord).takeWhile Text.isBlank).length =
      front.length + 1 ∧
    calledWords true rest = calledWords false more := by
  let tail := rest.takeWhile Text.isWord
  let blank := (rest.dropWhile Text.isWord).takeWhile Text.isBlank
  rw [isCalled, List.dropWhile_cons_of_pos word] at called
  obtain ⟨more, opens⟩ := List.head?_eq_some_iff.mp (beq_iff_eq.mp called)
  have whole : rest = tail ++ (blank ++ '(' :: more) := by
    rw [← opens, List.takeWhile_append_dropWhile, List.takeWhile_append_dropWhile]
  have inside : ∀ d ∈ tail, Text.isWord d = true := fun _ member => List.mem_takeWhile_imp member
  have between : ∀ d ∈ blank, Text.isWord d = false :=
    fun _ member => Text.not_isWord_of_isBlank (List.mem_takeWhile_imp member)
  refine ⟨tail ++ blank, more, by rw [List.append_assoc, ← whole], ?_, ?_⟩
  · rw [List.takeWhile_cons_of_pos word, List.dropWhile_cons_of_pos word, List.length_append, List.length_cons]
    exact Nat.add_right_comm _ _ _
  · calc calledWords true rest = calledWords true (tail ++ (blank ++ '(' :: more)) := by rw [← whole]
      _ = calledWords true (blank ++ '(' :: more) := calledWords_inside inside _
      _ = calledWords false more := calledWords_between between more true

/-- All calls of a text are found, one for each word that is called. -/
theorem findAllFrom_calledWords (s : List Char) (behind : List Char) :
    (callForm.findAllFrom 0 behind s).map (·.subject) = calledWords (behind.head?.any Text.isWord) s := by
  induction length : s.length using Nat.strongRecOn generalizing s behind with
  | ind n ih =>
    cases s with
    | nil => rfl
    | cons c rest =>
        have matched := callForm_match behind c rest
        rw [List.length_cons] at length
        rw [findAllFrom, calledWords]
        dsimp only at matched
        cases found : callForm.matchAt? behind (c :: rest) with
        | none =>
            rw [found] at matched
            split at matched
            · cases matched
            · rename_i no
              rw [if_neg no]
              exact ih rest.length (by omega) rest (c :: behind) rfl
        | some call =>
            rw [found] at matched
            split at matched
            · rename_i yes
              obtain ⟨subject, size⟩ := Prod.mk.inj (Option.some.inj matched)
              have conditions := yes
              simp only [Bool.and_eq_true] at conditions
              have word := isWord_of_startsName conditions.1.2
              obtain ⟨front, more, rfl, counted, left⟩ := calledWords_call word conditions.2
              have passed : callForm.findAllFrom (call.text.length - 1) (c :: behind) (front ++ '(' :: more) =
                  callForm.findAllFrom 0 ('(' :: (front.reverse ++ c :: behind)) more := by
                rw [findAllFrom_skip, size, counted, Nat.add_sub_cancel]
                simp [List.take_append, List.drop_append, List.take_of_length_le, List.drop_of_length_le]
              have shorter : more.length < n := by
                rw [← length, List.length_append, List.length_cons]
                omega
              have later := ih more.length shorter more ('(' :: (front.reverse ++ c :: behind)) rfl
              have outside : Text.isWord '(' = false := by decide
              rw [List.head?_cons, Option.any_some, outside] at later
              rw [if_pos yes, word, left, ← later, ← subject, ← passed]
              rfl
            · cases matched

theorem calledNames_eq (code : List Char) :
    calledNames code = ((calledWords false code).map String.ofList).filter fun name => !isReserved name := by
  have words : (callForm.findAllFrom 0 [] code).map (·.subject) = calledWords false code :=
    findAllFrom_calledWords code []
  rw [← words, List.map_map]
  rfl

example : calledNames "a.b (c) if(x1) 2f(g(".toList = ["b", "g"] := by decide +kernel

end Extraction

end FlowAtlas
