import FlowAtlas.Proofs.Extraction.Shorthand

namespace FlowAtlas.Extraction

open Pattern

section words

def firstWord (code : List Char) : List Char := code.takeWhile Text.isWord

def BeginsWith (word : String) (code : List Char) : Prop :=
  ∃ rest, code = word.toList ++ rest ∧ rest.head?.any Text.isWord = false

theorem firstWord_append {word rest : List Char} (letters : IsWordText word)
    (stops : rest.head?.any Text.isWord = false) : firstWord (word ++ rest) = word := by
  have none : rest.takeWhile Text.isWord = [] := by
    cases rest with
    | nil => rfl
    | cons c more => exact List.takeWhile_cons_of_neg (by simpa using stops)
  rw [firstWord, List.takeWhile_append_of_pos letters, none, List.append_nil]

theorem BeginsWith.firstWord_eq {word : String} {code : List Char} (letters : IsWordText word.toList)
    (begins : BeginsWith word code) : firstWord code = word.toList := by
  obtain ⟨rest, rfl, stops⟩ := begins
  exact firstWord_append letters stops

theorem blank_stops {gap rest : List Char} (blank : IsBlankText gap) (stops : rest.head?.any Text.isWord = false) :
    (gap ++ rest).head?.any Text.isWord = false := by
  cases gap with
  | nil => exact stops
  | cons c gap => exact Text.not_isWord_of_isBlank (blank c List.mem_cons_self)

end words

section listed

theorem isWordEdge_behind {word : List Char} (given : word ≠ []) (letters : IsWordText word) {start stop : Place}
    (apart : Apart word start stop) : stop.isWordEdge = true ↔ stop.ahead.head?.any Text.isWord = false := by
  obtain ⟨c, more, same⟩ := List.exists_cons_of_ne_nil (List.reverse_ne_nil_iff.mpr given)
  have word : Text.isWord c = true := letters c (List.mem_reverse.mp (same ▸ List.mem_cons_self))
  rw [Place.isWordEdge, apart.behind, same, List.cons_append, List.head?_cons, Option.any_some, word]
  cases stop.ahead.head?.any Text.isWord <;> simp

theorem mem_noStatement {start stop : Place} : stop ∈ Generic.noStatement.places start ↔
    stop = start ∧ ∀ word ∈ Generic.statementWords, firstWord start.ahead ≠ word.toList := by
  have listed : Generic.statementWords ≠ [] := by decide
  have fit : ∀ word ∈ Generic.statementWords, word.toList ≠ [] ∧ IsWordText word.toList := by decide
  have found : (∃ place, place ∈ (seq (Pattern.words Generic.statementWords) wordEdge).places start) ↔
      ∃ word ∈ Generic.statementWords, firstWord start.ahead = word.toList := by
    constructor
    · rintro ⟨_, member⟩
      obtain ⟨middle, reached, edge⟩ := mem_seq.mp member
      obtain ⟨_, spelled, apart⟩ := places_spell _ _ _ reached
      obtain ⟨word, among, rfl⟩ := (spells_words listed).mp spelled
      have stops := (isWordEdge_behind (fit word among).1 (fit word among).2 apart).mp (mem_wordEdge.mp edge).2
      exact ⟨word, among, apart.ahead ▸ firstWord_append (fit word among).2 stops⟩
    · rintro ⟨word, among, first⟩
      have split : start.ahead = word.toList ++ start.ahead.dropWhile Text.isWord := by
        rw [← first]
        exact (List.takeWhile_append_dropWhile ..).symm
      obtain ⟨middle, reached, ahead⟩ :=
        spells_reach (plain_words listed) ((spells_words listed).mpr ⟨word, among, rfl⟩) split
      obtain ⟨text, _, apart⟩ := places_spell _ _ _ reached
      have same : text = word.toList := by
        have whole := split.symm.trans apart.ahead
        rw [ahead] at whole
        exact (List.append_cancel_right whole).symm
      have stops : middle.ahead.head?.any Text.isWord = false := by
        rw [ahead]
        have halts := List.head?_dropWhile_not Text.isWord start.ahead
        cases next : (start.ahead.dropWhile Text.isWord).head? with
        | none => rfl
        | some c => simpa [next] using halts
      have edge := (isWordEdge_behind (fit word among).1 (fit word among).2 (same ▸ apart)).mpr stops
      exact ⟨middle, mem_seq.mpr ⟨middle, reached, mem_wordEdge.mpr ⟨rfl, edge⟩⟩⟩
  rw [Generic.noStatement, places]
  cases tried : (seq (Pattern.words Generic.statementWords) wordEdge).places start with
  | nil =>
      have none := (not_congr found).mp (by simp [tried])
      simp only [List.isEmpty_nil, if_true, List.mem_singleton]
      exact ⟨fun same => ⟨same, fun word among first => none ⟨word, among, first⟩⟩, fun held => held.1⟩
  | cons place others =>
      obtain ⟨word, among, first⟩ := found.mp ⟨place, tried ▸ List.mem_cons_self⟩
      simp only [List.isEmpty_cons, Bool.false_eq_true, if_false, List.not_mem_nil, false_iff]
      exact fun held => held.2 word among first

end listed

section typed

def IsIdentifier (name : List Char) : Prop :=
  ∃ c rest, Generic.isNameStart c = true ∧ IsWordText rest ∧ name = c :: rest

/-- Types or modifiers, each with blanks behind it. -/
structure IsTypes (types : List Char) : Prop where
  characters : ∀ c ∈ types, Generic.isTypeCharacter c = true ∨ Text.isBlank c = true
  begins : types.head?.any Generic.isTypeCharacter = true
  ends : types.getLast?.any Text.isBlank = true

instance (types : List Char) : Decidable (IsTypes types) :=
  have : Decidable (∀ c ∈ types, Generic.isTypeCharacter c = true ∨ Text.isBlank c = true) := List.decidableBAll _ types
  decidable_of_iff ((∀ c ∈ types, Generic.isTypeCharacter c = true ∨ Text.isBlank c = true) ∧
      types.head?.any Generic.isTypeCharacter = true ∧ types.getLast?.any Text.isBlank = true)
    ⟨fun ⟨characters, begins, ends⟩ => ⟨characters, begins, ends⟩,
      fun held => ⟨held.characters, held.begins, held.ends⟩⟩

/-- Types or modifiers, perhaps a mark, a name and an opening parenthesis, with no semicolon behind it. -/
def TypedHead (name code : List Char) : Prop :=
  ∃ types mark gap args, IsTypes types ∧ mark ∈ [[], ['*'], ['&']] ∧ IsIdentifier name ∧ IsBlankText gap ∧
    ';' ∉ args ∧ code = types ++ (mark ++ (name ++ (gap ++ '(' :: args)))

def typedPiece : Pattern := seq (run1 Generic.isTypeCharacter) blanks1

theorem not_blank_of_type {c : Char} (type : Generic.isTypeCharacter c = true) : Text.isBlank c = false := by
  rcases Bool.or_eq_true_iff.mp type with word | mark
  · exact (solid_of_word word).1
  · have plain : "<>[],.*&:?".toList.all (fun mark => !Text.isBlank mark) = true := by decide
    simpa using List.all_eq_true.mp plain c (List.contains_iff_mem.mp mark)

theorem isTypes_piece {type gap : List Char} (given : type ≠ []) (typed : ∀ c ∈ type, Generic.isTypeCharacter c = true)
    (spaced : gap ≠ []) (blank : IsBlankText gap) : IsTypes (type ++ gap) where
  characters c member := (List.mem_append.mp member).imp (typed c) (blank c)
  begins := by
    obtain ⟨c, type, rfl⟩ := List.exists_cons_of_ne_nil given
    exact typed c List.mem_cons_self
  ends := by
    rw [List.getLast?_append_of_ne_nil _ spaced, List.getLast?_eq_some_getLast spaced]
    exact blank _ (List.getLast_mem spaced)

theorem IsTypes.append {first second : List Char} (early : IsTypes first) (late : IsTypes second) :
    IsTypes (first ++ second) where
  characters c member := (List.mem_append.mp member).elim (early.characters c) (late.characters c)
  begins := by
    have begins := early.begins
    cases first with
    | nil => cases begins
    | cons c rest => exact begins
  ends := by
    have ends := late.ends
    have given : second ≠ [] := by
      rintro rfl
      cases ends
    rwa [List.getLast?_append_of_ne_nil _ given]

theorem isTypes_of_pieces {pieces : List (List Char)} (spelled : ∀ piece ∈ pieces, typedPiece.Spells piece)
    (given : pieces ≠ []) : IsTypes pieces.flatten := by
  have each : ∀ piece ∈ pieces, IsTypes piece := by
    intro piece member
    obtain ⟨type, gap, typed, spaced, rfl⟩ := spelled piece member
    obtain ⟨some, typed⟩ := spells_run1.mp typed
    obtain ⟨more, blank⟩ := spells_run1.mp spaced
    exact isTypes_piece some typed more blank
  induction pieces with
  | nil => exact absurd rfl given
  | cons piece rest ih =>
      obtain ⟨here, others⟩ := List.forall_mem_cons.mp each
      cases rest with
      | nil => simpa using here
      | cons next more =>
          rw [List.flatten_cons]
          exact here.append (ih (List.forall_mem_cons.mp spelled).2 (List.cons_ne_nil _ _) others)

theorem run_split (kind : Char → Bool) (s : List Char) :
    ∃ run rest, s = run ++ rest ∧ (∀ c ∈ run, kind c = true) ∧ ∀ c more, rest = c :: more → kind c = false := by
  refine ⟨s.takeWhile kind, s.dropWhile kind, (List.takeWhile_append_dropWhile ..).symm,
    fun c member => List.mem_takeWhile_imp member, ?_⟩
  intro c more same
  have halts := List.head?_dropWhile_not kind s
  rwa [same] at halts

theorem IsTypes.cut {types : List Char} (held : IsTypes types) : ∃ type gap rest, types = type ++ gap ++ rest ∧
    type ≠ [] ∧ gap ≠ [] ∧ typedPiece.Spells (type ++ gap) ∧ (rest = [] ∨ IsTypes rest) := by
  obtain ⟨type, behind, rfl, typed, untyped⟩ := run_split Generic.isTypeCharacter types
  obtain ⟨gap, rest, rfl, blank, solid⟩ := run_split Text.isBlank behind
  have given : type ≠ [] := by
    rintro rfl
    have begins := held.begins
    cases next : gap ++ rest with
    | nil => simp [next] at begins
    | cons c more => simp [next, untyped c more next] at begins
  have spaced : gap ≠ [] := by
    rintro rfl
    cases rest with
    | nil =>
        have ends := held.ends
        rw [List.nil_append, List.append_nil, List.getLast?_eq_some_getLast given] at ends
        rw [Option.any_some, not_blank_of_type (typed _ (List.getLast_mem given))] at ends
        cases ends
    | cons c more =>
        rcases held.characters c (by simp) with type | space
        · rw [untyped c more rfl] at type
          cases type
        · rw [solid c more rfl] at space
          cases space
  refine ⟨type, gap, rest, (List.append_assoc ..).symm, given, spaced,
    ⟨type, gap, spells_run1.mpr ⟨given, typed⟩, spells_run1.mpr ⟨spaced, blank⟩, rfl⟩, ?_⟩
  cases rest with
  | nil => exact Or.inl rfl
  | cons c more =>
      have characters : ∀ d ∈ c :: more, Generic.isTypeCharacter d = true ∨ Text.isBlank d = true :=
        fun d member => held.characters d (List.mem_append_right _ (List.mem_append_right _ member))
      refine Or.inr ⟨characters, ?_, ?_⟩
      · exact (characters c List.mem_cons_self).resolve_right (by simp [solid c more rfl])
      · have ends := held.ends
        rwa [← List.append_assoc, List.getLast?_append_of_ne_nil _ (List.cons_ne_nil _ _)] at ends

theorem pieces_of_isTypes {types : List Char} (held : IsTypes types) :
    ∃ pieces, pieces ≠ [] ∧ (∀ piece ∈ pieces, piece ≠ [] ∧ typedPiece.Spells piece) ∧ types = pieces.flatten := by
  -- A piece is cut off in front, so the induction is on what is left.
  induction length : types.length using Nat.strongRecOn generalizing types with
  | ind n ih =>
    subst length
    obtain ⟨type, gap, rest, rfl, given, _, spelled, later⟩ := held.cut
    have some : type ++ gap ≠ [] := List.append_ne_nil_of_left_ne_nil given _
    rcases later with rfl | later
    · exact ⟨[type ++ gap], List.cons_ne_nil _ _, by simpa using ⟨fun none => absurd none given, spelled⟩, by simp⟩
    · have shorter : rest.length < (type ++ gap ++ rest).length := by
        have positive := List.length_pos_iff.mpr some
        rw [List.length_append]
        omega
      obtain ⟨pieces, _, others, rfl⟩ := ih rest.length shorter later rfl
      exact ⟨(type ++ gap) :: pieces, List.cons_ne_nil _ _, List.forall_mem_cons.mpr ⟨⟨some, spelled⟩, others⟩, rfl⟩

def typedFront : List Pattern := [Generic.noStatement, atLeastOnce typedPiece, optional (oneOf "*&")]

def typedName : Pattern := seq (one Generic.isNameStart) (run Text.isWord)

def typedTail : List Pattern := [blanks, char '(', run (noneOf ";")]

theorem typedFunction_eq : Generic.typedFunction.pattern =
    seq atStart (inOrder (typedFront ++ group .subject typedName :: (typedTail ++ [atEnd]))) := rfl

theorem spells_typedName {s : List Char} : typedName.Spells s ↔ IsIdentifier s := by
  constructor
  · rintro ⟨_, rest, ⟨c, start, rfl⟩, letters, rfl⟩
    exact ⟨c, rest, start, letters, rfl⟩
  · rintro ⟨c, rest, start, letters, rfl⟩
    exact ⟨[c], rest, ⟨c, start, rfl⟩, letters, rfl⟩

theorem spells_mark {s : List Char} : (optional (oneOf "*&")).Spells s ↔ s ∈ [[], ['*'], ['&']] := by
  simp [oneOf, Spells, or_comm]

theorem spells_typedTail {s : List Char} : (inOrder typedTail).Spells s ↔
    ∃ gap args, IsBlankText gap ∧ ';' ∉ args ∧ s = gap ++ '(' :: args := by
  constructor
  · rintro ⟨gap, _, blank, ⟨_, args, paren, plain, rfl⟩, rfl⟩
    obtain rfl := spells_char.mp paren
    exact ⟨gap, args, blank, (all_noneOf (by rfl : ";".toList = [';'])).mp plain, rfl⟩
  · rintro ⟨gap, args, blank, plain, rfl⟩
    have free := (all_noneOf (by rfl : ";".toList = [';'])).mpr plain
    exact ⟨gap, _, blank, ⟨['('], args, spells_char.mpr rfl, free, rfl⟩, rfl⟩

theorem spells_typedFront {s : List Char} : (inOrder typedFront).Spells s ↔
    ∃ types mark, IsTypes types ∧ mark ∈ [[], ['*'], ['&']] ∧ s = types ++ mark := by
  constructor
  · rintro ⟨_, _, rfl, ⟨_, mark, ⟨piece, _, first, ⟨pieces, others, rfl⟩, rfl⟩, marked, rfl⟩, rfl⟩
    have types : IsTypes (piece :: pieces).flatten :=
      isTypes_of_pieces (List.forall_mem_cons.mpr ⟨first, others⟩) (List.cons_ne_nil _ _)
    exact ⟨(piece :: pieces).flatten, mark, types, spells_mark.mp marked, rfl⟩
  · rintro ⟨types, mark, held, marked, rfl⟩
    obtain ⟨pieces, given, spelled, rfl⟩ := pieces_of_isTypes held
    obtain ⟨piece, pieces, rfl⟩ := List.exists_cons_of_ne_nil given
    obtain ⟨⟨_, first⟩, others⟩ := List.forall_mem_cons.mp spelled
    exact ⟨[], _, rfl, ⟨_, mark, ⟨piece, pieces.flatten, first,
      ⟨pieces, fun other member => (others other member).2, rfl⟩, rfl⟩, spells_mark.mpr marked, rfl⟩, rfl⟩

variable {code : List Char}

/-- What the form of typed declarations finds has types in front of its name, and does not begin with a word of a
statement. -/
theorem typedFunction_sound {found : Match} (searched : Generic.typedFunction.pattern.search? code = some found) :
    TypedHead found.subject code ∧ ∀ word ∈ Generic.statementWords, firstWord code ≠ word.toList := by
  rw [typedFunction_eq, search_anchored] at searched
  have ungrouped : (inOrder (typedTail ++ [atEnd])).Ungrouped := by
    simp [Ungrouped, typedTail, Each, blanks, Pattern.char]
  obtain ⟨_, _, led, named, followed, after, whole⟩ := matchAt_spells ungrouped searched
  obtain ⟨types, mark, held, marked, rfl⟩ := spells_typedFront.mp led
  obtain ⟨_, _, tail, rfl, rfl⟩ := spells_inOrder_append.mp followed
  obtain ⟨gap, args, blank, plain, rfl⟩ := spells_typedTail.mp tail
  obtain ⟨stop, first, same⟩ := Option.map_eq_some_iff.mp searched
  have member := List.mem_of_mem_head? first
  -- A final line feed stays behind the match.
  have ends : found.rest = [] ∨ found.rest = ['\n'] := by
    rw [← List.cons_append, ← List.append_assoc] at member
    obtain ⟨_, _, last⟩ := mem_inOrder_append.mp member
    obtain ⟨rfl, ends⟩ := mem_atEnd.mp last
    exact same ▸ ends
  have free : ';' ∉ args ++ found.rest := by
    intro semicolon
    rcases List.mem_append.mp semicolon with inside | behind
    · exact plain inside
    · rcases ends with none | feed
      · rw [none] at behind
        cases behind
      · rw [feed] at behind
        exact absurd behind (by decide)
  refine ⟨⟨types, mark, gap, args ++ found.rest, held, marked, spells_typedName.mp named, blank, free, ?_⟩, ?_⟩
  · rw [after] at whole
    simpa using whole
  · obtain ⟨middle, reached, _⟩ := mem_inOrder_cons.mp member
    exact (mem_noStatement.mp reached).2

/-- What has types in front of a name is found by the form, unless it begins with a word of a statement. -/
theorem typedFunction_complete {name : List Char} (head : TypedHead name code)
    (free : ∀ word ∈ Generic.statementWords, firstWord code ≠ word.toList) :
    ∃ found, Generic.typedFunction.pattern.search? code = some found := by
  obtain ⟨types, mark, gap, args, held, marked, named, blank, plain, rfl⟩ := head
  obtain ⟨pieces, given, spelled, rfl⟩ := pieces_of_isTypes held
  obtain ⟨piece, pieces, rfl⟩ := List.exists_cons_of_ne_nil given
  obtain ⟨⟨_, first⟩, others⟩ := List.forall_mem_cons.mp spelled
  let start : Place :=
    { behind := [], ahead := (piece :: pieces).flatten ++ (mark ++ (name ++ (gap ++ '(' :: args))) }
  have unlisted : start ∈ Generic.noStatement.places start := mem_noStatement.mpr ⟨rfl, free⟩
  have pieced : typedPiece.Plain := by simp [typedPiece, blanks1]
  have ahead : start.ahead = piece ++ (pieces.flatten ++ (mark ++ (name ++ (gap ++ '(' :: args)))) := by
    simp [start]
  obtain ⟨second, read, left⟩ := spells_reach pieced first ahead
  obtain ⟨third, round, behind⟩ := many_reach pieced others left
  let parts := optional (oneOf "*&") :: group .subject typedName :: typedTail
  have further : (inOrder parts).Spells (mark ++ (name ++ (gap ++ '(' :: args))) :=
    ⟨mark, _, spells_mark.mpr marked,
      ⟨name, _, spells_typedName.mpr named, spells_typedTail.mpr ⟨gap, args, blank, plain, rfl⟩, rfl⟩, rfl⟩
  have easy : (inOrder parts).Plain := by
    simp [parts, typedTail, typedName, oneOf, blanks]
  obtain ⟨stop, arrived, none⟩ := spells_reach easy further (behind.trans (List.append_nil _).symm)
  have ended : stop ∈ atEnd.places stop := mem_atEnd.mpr ⟨rfl, Or.inl none⟩
  have tail : stop ∈ (inOrder (parts ++ [atEnd])).places third := mem_inOrder_append.mpr ⟨stop, arrived, ended⟩
  have member : stop ∈ (inOrder (typedFront ++ group .subject typedName :: (typedTail ++ [atEnd]))).places start :=
    mem_inOrder_cons.mpr ⟨start, unlisted,
      mem_inOrder_cons.mpr ⟨third, mem_seq.mpr ⟨second, read, round⟩, tail⟩⟩
  rw [typedFunction_eq, search_anchored]
  exact Option.isSome_iff_exists.mp (matchAt_isSome.mpr ⟨stop, member⟩)

def inName (c : Char) : Bool := Text.isWord c || c == '~'

theorem IsIdentifier.inName {name : List Char} (named : IsIdentifier name) : ∀ c ∈ name, inName c = true := by
  obtain ⟨c, rest, start, letters, rfl⟩ := named
  refine List.forall_mem_cons.mpr ⟨?_, fun d member => Bool.or_eq_true_iff.mpr (Or.inl (letters d member))⟩
  rcases nameCharacter_of_nameStart start with word | tilde
  · exact Bool.or_eq_true_iff.mpr (Or.inl word)
  · exact Bool.or_eq_true_iff.mpr (Or.inr (beq_iff_eq.mpr tilde))

theorem not_blank_of_inName {c : Char} (name : inName c = true) : Text.isBlank c = false := by
  rcases Bool.or_eq_true_iff.mp name with word | tilde
  · exact (solid_of_word word).1
  · rw [eq_of_beq tilde]
    decide

theorem lastName_inj {front behind name other gap space : List Char} {stop halt : Char}
    (named : ∀ c ∈ name, inName c = true) (called : ∀ c ∈ other, inName c = true) (given : name ≠ [])
    (some : other ≠ []) (blank : IsBlankText gap) (spaced : IsBlankText space) (stops : inName stop = false)
    (halts : inName halt = false) (same : front ++ stop :: (name ++ gap) = behind ++ halt :: (other ++ space)) :
    name = other := by
  obtain ⟨last, before, ends⟩ := List.exists_cons_of_ne_nil (List.reverse_ne_nil_iff.mpr given)
  obtain ⟨final, earlier, closes⟩ := List.exists_cons_of_ne_nil (List.reverse_ne_nil_iff.mpr some)
  have solid : Text.isBlank last = false :=
    not_blank_of_inName (named last (List.mem_reverse.mp (ends ▸ List.mem_cons_self)))
  have firm : Text.isBlank final = false :=
    not_blank_of_inName (called final (List.mem_reverse.mp (closes ▸ List.mem_cons_self)))
  have mirrored : gap.reverse ++ (name.reverse ++ stop :: front.reverse) =
      space.reverse ++ (other.reverse ++ halt :: behind.reverse) := by
    simpa using congrArg List.reverse same
  have trailing : ∀ {gap : List Char}, IsBlankText gap → ∀ c ∈ gap.reverse, Text.isBlank c = true :=
    fun blank c member => blank c (List.mem_reverse.mp member)
  -- Read from their ends both texts are blanks, a name and what stops it.
  rw [ends, closes] at mirrored
  obtain ⟨_, here, rest⟩ := Text.run_inj Text.isBlank (trailing blank) (trailing spaced) solid firm mirrored
  have names : name.reverse ++ stop :: front.reverse = other.reverse ++ halt :: behind.reverse := by
    rw [ends, closes, here]
    exact congrArg (final :: ·) rest
  have told := (Text.run_inj inName (fun c member => named c (List.mem_reverse.mp member))
    (fun c member => called c (List.mem_reverse.mp member)) stops halts names).1
  exact List.reverse_injective told

theorem types_end {types mark : List Char} (held : IsTypes types) (marked : mark ∈ [[], ['*'], ['&']]) :
    ∃ front stop, types ++ mark = front ++ [stop] ∧ inName stop = false := by
  obtain ⟨front, last, rfl⟩ : ∃ front last, types = front ++ [last] := by
    rcases List.eq_nil_or_concat types with rfl | ⟨front, last, same⟩
    · exact absurd held.ends (by decide)
    · exact ⟨front, last, same.trans List.concat_eq_append⟩
  simp only [List.mem_cons, List.not_mem_nil, or_false] at marked
  rcases marked with rfl | rfl | rfl
  · refine ⟨front, last, List.append_nil _, ?_⟩
    have blank : Text.isBlank last = true := by simpa using held.ends
    by_contra name
    rw [not_blank_of_inName (Bool.not_eq_false _ ▸ name)] at blank
    cases blank
  · exact ⟨front ++ [last], '*', rfl, by decide⟩
  · exact ⟨front ++ [last], '&', rfl, by decide⟩

theorem paren_not_mem {types mark name gap : List Char} (held : IsTypes types) (marked : mark ∈ [[], ['*'], ['&']])
    (named : IsIdentifier name) (blank : IsBlankText gap) : '(' ∉ types ++ (mark ++ (name ++ gap)) := by
  intro member
  rcases List.mem_append.mp member with member | member
  · exact absurd (held.characters _ member) (by decide)
  rcases List.mem_append.mp member with member | member
  · simp only [List.mem_cons, List.not_mem_nil, or_false] at marked
    rcases marked with rfl | rfl | rfl
    · cases member
    · exact absurd member (by decide)
    · exact absurd member (by decide)
  rcases List.mem_append.mp member with member | member
  · exact absurd (named.inName _ member) (by decide)
  · exact absurd (blank _ member) (by decide)

theorem typedHead_unique {name other : List Char} (head : TypedHead name code) (again : TypedHead other code) :
    name = other := by
  obtain ⟨types, mark, gap, args, held, marked, named, blank, _, whole⟩ := head
  obtain ⟨kinds, sign, space, params, holds, signed, called, spaced, _, rfl⟩ := again
  obtain ⟨front, stop, ends, stops⟩ := types_end held marked
  obtain ⟨behind, halt, closes, halts⟩ := types_end holds signed
  have cut : (types ++ (mark ++ (name ++ gap))) ++ '(' :: args =
      (kinds ++ (sign ++ (other ++ space))) ++ '(' :: params := by
    simpa using whole.symm
  have same := (Text.cut_inj (paren_not_mem held marked named blank) (paren_not_mem holds signed called spaced) cut).1
  rw [← List.append_assoc, ← List.append_assoc kinds, ends, closes, List.append_assoc, List.append_assoc] at same
  have given : ∀ {name : List Char}, IsIdentifier name → name ≠ [] := by
    rintro _ ⟨c, rest, _, _, rfl⟩
    exact List.cons_ne_nil _ _
  exact lastName_inj named.inName called.inName (given named) (given called) blank spaced stops halts same

end typed

end FlowAtlas.Extraction
