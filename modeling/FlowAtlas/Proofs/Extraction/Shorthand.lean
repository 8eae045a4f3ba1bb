import FlowAtlas.Proofs.Extraction.Attribution
import FlowAtlas.Proofs.Extraction.Unquoted
import FlowAtlas.Proofs.Pattern.Spelling
import FlowAtlas.Proofs.Text.Separators

/-! Methods without a keyword in front of their name, and calls that look like them. -/

namespace FlowAtlas.Extraction

open Pattern

def IsBlankText (s : List Char) : Prop := ∀ c ∈ s, Text.isBlank c = true

instance : DecidablePred IsBlankText := fun s => List.decidableBAll (Text.isBlank · = true) s

theorem IsBlankText.append {first second : List Char} (early : IsBlankText first) (late : IsBlankText second) :
    IsBlankText (first ++ second) := by
  intro c member
  exact (List.mem_append.mp member).elim (early c) (late c)

def IsWordText (s : List Char) : Prop := ∀ c ∈ s, Text.isWord c = true

instance : DecidablePred IsWordText := fun s => List.decidableBAll (Text.isWord · = true) s

section header

def closes : Nat → List Char → Bool
  | _, [] => false
  | depth, c :: rest =>
    if c == '(' then closes (depth + 1) rest
    else if c == ')' then depth == 0 || closes (depth - 1) rest
    else closes depth rest

theorem closes_append {params : List Char} (unclosed : ')' ∉ params) (rest : List Char) : ∀ depth,
    closes depth (params ++ rest) = closes (depth + params.count '(') rest := by
  induction params with
  | nil => exact fun depth => rfl
  | cons c params ih =>
      intro depth
      have other : c ≠ ')' := fun same => unclosed (same ▸ List.mem_cons_self)
      have later := ih fun member => unclosed (List.mem_cons_of_mem c member)
      rw [List.cons_append, closes, List.count_cons]
      by_cases opens : c = '('
      · simp [opens, later, Nat.add_assoc, Nat.add_comm 1]
      · simp [opens, other, later]

theorem closes_params {params : List Char} (unclosed : ')' ∉ params) (between : List Char) :
    closes 0 (params ++ ')' :: between) = true ↔
      '(' ∉ params ∨ closes (params.count '(' - 1) between = true := by
  have step : ∀ depth, closes depth (')' :: between) = (depth == 0 || closes (depth - 1) between) := fun _ => rfl
  rw [closes_append unclosed, step, Nat.zero_add, Bool.or_eq_true, beq_iff_eq, List.count_eq_zero]

/-- What stands between a name and its parameters: blanks, and perhaps a text in angle brackets. -/
def IsLead (lead : List Char) : Prop :=
  ∃ gap bracket more, IsBlankText gap ∧ IsBlankText more ∧
    (bracket = [] ∨ ∃ inner, '>' ∉ inner ∧ bracket = '<' :: (inner ++ ['>'])) ∧ lead = gap ++ (bracket ++ more)

def isTypeCharacter (c : Char) : Bool := c != '=' && c != '\x7b'

def IsResult (between : List Char) : Prop :=
  IsBlankText between ∨ ∃ gap type, IsBlankText gap ∧ type ≠ [] ∧ (∀ c ∈ type, isTypeCharacter c = true) ∧
    between = gap ++ ':' :: type

def resultType : Pattern := inOrder [char ':', blanks, run1 isTypeCharacter]

def methodTail : List Pattern :=
  [blanks, optional angleBrackets, blanks, parentheses, blanks,
    optional resultType, char '\x7b']

def methodFront : List Pattern := [many (keywords Brace.methodModifiers), optional (char '*'), blanks]

theorem shorthandMethod_eq :
    Brace.shorthandMethod.pattern = seq atStart (inOrder (methodFront ++ group .subject word :: methodTail)) := rfl

theorem all_noneOf {mark : Char} {excluded : String} (single : excluded.toList = [mark]) {s : List Char} :
    (∀ c ∈ s, noneOf excluded c = true) ↔ mark ∉ s := by
  have differs : ∀ c, noneOf excluded c = true ↔ c ≠ mark := by
    intro c
    rw [noneOf, single]
    simp
  simp only [differs]
  exact ⟨fun others member => others mark member rfl, fun absent c member same => absent (same ▸ member)⟩

theorem spells_parentheses {s : List Char} :
    parentheses.Spells s ↔ ∃ params, ')' ∉ params ∧ s = '(' :: (params ++ [')']) := by
  simp [parentheses, Spells, all_noneOf (by rfl : ")".toList = [')'])]

theorem spells_angleBrackets {s : List Char} :
    angleBrackets.Spells s ↔ ∃ inner, '>' ∉ inner ∧ s = '<' :: (inner ++ ['>']) := by
  simp [angleBrackets, Spells, all_noneOf (by rfl : ">".toList = ['>'])]

theorem isTypeCharacter_of_isBlank {c : Char} (blank : Text.isBlank c = true) : isTypeCharacter c = true := by
  have equal : c ≠ '=' := by
    rintro rfl
    exact absurd blank (by decide)
  have brace : c ≠ '\x7b' := by
    rintro rfl
    exact absurd blank (by decide)
  simp [isTypeCharacter, equal, brace]

theorem spells_resultType {s : List Char} :
    resultType.Spells s ↔ ∃ type, type ≠ [] ∧ (∀ c ∈ type, isTypeCharacter c = true) ∧ s = ':' :: type := by
  constructor
  · rintro ⟨_, _, colon, ⟨space, type, spaced, typed, rfl⟩, rfl⟩
    obtain rfl := spells_char.mp colon
    obtain ⟨some, typed⟩ := spells_run1.mp typed
    refine ⟨space ++ type, List.append_ne_nil_of_right_ne_nil _ some, ?_, rfl⟩
    intro c member
    rcases List.mem_append.mp member with front | back
    · exact isTypeCharacter_of_isBlank (spaced c front)
    · exact typed c back
  · rintro ⟨type, some, typed, rfl⟩
    exact ⟨[':'], type, spells_char.mpr rfl, ⟨[], type, nofun, spells_run1.mpr ⟨some, typed⟩, rfl⟩, rfl⟩

theorem spells_methodTail {s : List Char} : (inOrder methodTail).Spells s ↔
    ∃ lead params between, IsLead lead ∧ ')' ∉ params ∧ IsResult between ∧
      s = lead ++ '(' :: (params ++ ')' :: (between ++ ['\x7b'])) := by
  constructor
  · rintro ⟨gap, _, blank, ⟨bracket, _, angled, ⟨more, _, further, ⟨_, _, listed, ⟨space, _, spaced,
      ⟨type, _, typed, brace, rfl⟩, rfl⟩, rfl⟩, rfl⟩, rfl⟩, rfl⟩
    obtain ⟨params, unclosed, rfl⟩ := spells_parentheses.mp listed
    obtain rfl := spells_char.mp brace
    refine ⟨gap ++ (bracket ++ more), params, space ++ type, ⟨gap, bracket, more, blank, further, ?_, rfl⟩, unclosed,
      ?_, by simp⟩
    · rcases angled with angled | rfl
      · exact Or.inr (spells_angleBrackets.mp angled)
      · exact Or.inl rfl
    · rcases typed with typed | rfl
      · obtain ⟨name, some, accepted, rfl⟩ := spells_resultType.mp typed
        exact Or.inr ⟨space, name, spaced, some, accepted, rfl⟩
      · exact Or.inl (by rwa [List.append_nil])
  · rintro ⟨_, params, between, ⟨gap, bracket, more, blank, further, angled, rfl⟩, unclosed, result, rfl⟩
    obtain ⟨space, type, spaced, typed, rfl⟩ : ∃ space type, blanks.Spells space ∧
        (optional resultType).Spells type ∧ between = space ++ type := by
      rcases result with blank | ⟨gap, type, blank, some, typed, rfl⟩
      · exact ⟨between, [], blank, Or.inr rfl, (List.append_nil _).symm⟩
      · exact ⟨gap, ':' :: type, blank, Or.inl (spells_resultType.mpr ⟨type, some, typed, rfl⟩), rfl⟩
    have listed := spells_parentheses.mpr ⟨params, unclosed, rfl⟩
    have bracketed : (optional angleBrackets).Spells bracket := by
      rcases angled with rfl | angled
      · exact Or.inr rfl
      · exact Or.inl (spells_angleBrackets.mpr angled)
    exact ⟨gap, _, blank, ⟨bracket, _, bracketed, ⟨more, _, further, ⟨_, _, listed, ⟨space, _, spaced,
      ⟨type, _, typed, spells_char.mpr rfl, rfl⟩, rfl⟩, rfl⟩, rfl⟩, rfl⟩, by simp⟩

theorem methodForm_spells {code : List Char} {found : Match}
    (searched : Brace.shorthandMethod.pattern.search? code = some found) :
    ∃ front lead params between, (inOrder methodFront).Spells front ∧ word.Spells found.subject ∧ IsLead lead ∧
      ')' ∉ params ∧ IsResult between ∧ code = front ++ (found.subject ++ found.afterSubject) ∧
      found.afterSubject = lead ++ '(' :: (params ++ ')' :: (between ++ '\x7b' :: found.rest)) := by
  have ungrouped : (inOrder methodTail).Ungrouped := by
    simp [Ungrouped, methodTail, Each, blanks, Pattern.char, parentheses, angleBrackets, resultType]
  rw [shorthandMethod_eq, search_anchored] at searched
  obtain ⟨front, tail, led, named, followed, after, whole⟩ := matchAt_spells ungrouped searched
  obtain ⟨lead, params, between, isLead, unclosed, result, rfl⟩ := spells_methodTail.mp followed
  exact ⟨front, lead, params, between, led, named, isLead, unclosed, result, whole, by simpa using after⟩

theorem declaredRoutine_form {forms : List RoutineForm} {code : List Char} {form : RoutineForm} {found : Match}
    (declared : declaredRoutine? forms code = some (form, found)) : declared? form.pattern code = some found := by
  obtain ⟨tried, _, matched⟩ := List.exists_of_findSome?_eq_some declared
  obtain ⟨inner, searched, same⟩ := Option.map_eq_some_iff.mp matched
  obtain ⟨rfl, rfl⟩ := Prod.mk.inj same
  exact searched

end header

section statements

def GoesOn (s : List Char) : Prop :=
  ∃ gap c rest, IsBlankText gap ∧ Text.isBlank c = false ∧ c ≠ '(' ∧ s = gap ++ c :: rest

def Veers (s : List Char) : Prop :=
  ∃ name gap c rest, IsWordText name ∧ IsBlankText gap ∧ Text.isBlank c = false ∧ c ≠ '(' ∧
    (gap = [] → Text.isWord c = false) ∧ s = name ++ (gap ++ c :: rest)

def Leads (pattern : Pattern) : Prop :=
  ∀ front back, pattern.Spells front → GoesOn back → GoesOn (front ++ back) ∧ (front = [] ∨ Veers (front ++ back))

variable {first second : Pattern}

theorem leads_empty : Leads empty := by
  rintro front back rfl opens
  exact ⟨opens, Or.inl rfl⟩

theorem leads_seq (early : Leads first) (late : Leads second) : Leads (seq first second) := by
  rintro _ rest ⟨front, back, spelled, further, rfl⟩ opens
  obtain ⟨opening, turns⟩ := late back rest further opens
  obtain ⟨whole, leads⟩ := early front (back ++ rest) spelled opening
  rw [List.append_assoc]
  refine ⟨whole, ?_⟩
  rcases leads with rfl | veers
  · exact turns
  · exact Or.inr veers

theorem leads_inOrder {parts : List Pattern} (each : ∀ part ∈ parts, Leads part) : Leads (inOrder parts) := by
  induction parts with
  | nil => exact leads_empty
  | cons first rest ih =>
      obtain ⟨here, others⟩ := List.forall_mem_cons.mp each
      cases rest with
      | nil => exact here
      | cons second more => exact leads_seq here (ih others)

theorem leads_optional (leads : Leads first) : Leads (optional first) := by
  rintro front back (spelled | rfl) opens
  · exact leads front back spelled opens
  · exact ⟨opens, Or.inl rfl⟩

theorem leads_many (leads : Leads first) : Leads (many first) := by
  rintro _ back ⟨pieces, spelled, rfl⟩ opens
  induction pieces with
  | nil => exact ⟨opens, Or.inl rfl⟩
  | cons piece rest ih =>
      obtain ⟨here, others⟩ := List.forall_mem_cons.mp spelled
      obtain ⟨opening, turns⟩ := ih others
      obtain ⟨whole, leads⟩ := leads piece _ here opening
      rw [List.flatten_cons, List.append_assoc]
      refine ⟨whole, ?_⟩
      rcases leads with rfl | veers
      · exact turns
      · exact Or.inr veers

theorem leads_blanks : Leads blanks := by
  rintro front back blank ⟨gap, c, rest, further, solid, other, rfl⟩
  have all : IsBlankText (front ++ gap) := IsBlankText.append blank further
  refine ⟨⟨front ++ gap, c, rest, all, solid, other, by simp⟩, ?_⟩
  rcases front with _ | ⟨d, front⟩
  · exact Or.inl rfl
  · exact Or.inr ⟨[], d :: front ++ gap, c, rest, nofun, all, solid, other, nofun, by simp⟩

theorem solid_of_word {c : Char} (word : Text.isWord c = true) : Text.isBlank c = false ∧ c ≠ '(' := by
  refine ⟨?_, ?_⟩
  · by_contra blank
    rw [Text.not_isWord_of_isBlank (Bool.not_eq_false _ ▸ blank)] at word
    cases word
  · rintro rfl
    exact absurd word (by decide)

theorem leads_keyword {body : Pattern} (words : ∀ s, body.Spells s → s ≠ [] ∧ IsWordText s) :
    Leads (seq body blanks1) := by
  rintro _ back ⟨name, gap, named, blank, rfl⟩ ⟨space, c, rest, further, solid, other, rfl⟩
  obtain ⟨some, word⟩ := words name named
  obtain ⟨given, blank⟩ := spells_run1.mp blank
  have all : IsBlankText (gap ++ space) := IsBlankText.append blank further
  constructor
  · obtain ⟨d, more, rfl⟩ := List.exists_cons_of_ne_nil some
    obtain ⟨firm, bracket⟩ := solid_of_word (word d List.mem_cons_self)
    exact ⟨[], d, more ++ gap ++ (space ++ c :: rest), nofun, firm, bracket, by simp⟩
  · refine Or.inr ⟨name, gap ++ space, c, rest, word, all, solid, other, ?_, by simp⟩
    exact fun none => absurd (List.append_eq_nil_iff.mp none).1 given

theorem leads_char {c : Char} (solid : Text.isBlank c = false) (outside : Text.isWord c = false) (other : c ≠ '(') :
    Leads (char c) := by
  intro front back spelled _
  obtain rfl := spells_char.mp spelled
  have veers : Veers (c :: back) := ⟨[], [], c, back, nofun, nofun, solid, other, fun _ => outside, rfl⟩
  exact ⟨⟨[], c, back, nofun, solid, other, rfl⟩, Or.inr veers⟩

variable {name gap args : List Char}

/-- A call begins with a word and an opening parenthesis. -/
structure Calls (name gap args code : List Char) : Prop where
  given : name ≠ []
  letters : IsWordText name
  spaced : IsBlankText gap
  whole : code = name ++ (gap ++ '(' :: args)

variable {code : List Char} (calls : Calls name gap args code)

include calls

theorem Calls.cut {first space rest : List Char} {c : Char} (word : IsWordText first) (blank : IsBlankText space)
    (solid : Text.isBlank c = false) (outside : space = [] → Text.isWord c = false)
    (same : code = first ++ (space ++ c :: rest)) : name = first ∧ gap = space ∧ c = '(' ∧ args = rest := by
  have apart : ∀ {gap rest : List Char} {c : Char}, IsBlankText gap → (gap = [] → Text.isWord c = false) →
      ∃ d more, gap ++ c :: rest = d :: more ∧ Text.isWord d = false := by
    intro gap rest c blank outside
    cases gap with
    | nil => exact ⟨c, rest, rfl, outside rfl⟩
    | cons d gap => exact ⟨d, _, rfl, Text.not_isWord_of_isBlank (blank d List.mem_cons_self)⟩
  obtain ⟨d, more, behind, stops⟩ : ∃ d more, gap ++ '(' :: args = d :: more ∧ Text.isWord d = false :=
    apart calls.spaced fun _ => by decide
  obtain ⟨e, others, after, halts⟩ : ∃ d more, space ++ c :: rest = d :: more ∧ Text.isWord d = false :=
    apart blank outside
  have whole := calls.whole.symm.trans same
  rw [behind, after] at whole
  obtain ⟨names, rfl, rfl⟩ := Text.run_inj Text.isWord calls.letters word stops halts whole
  obtain ⟨gaps, paren, rests⟩ :=
    Text.run_inj Text.isBlank calls.spaced blank (by decide) solid (behind.trans after.symm)
  exact ⟨names, gaps, paren.symm, rests⟩

theorem Calls.first_word : code.takeWhile Text.isWord = name := by
  rw [calls.whole, List.takeWhile_append_of_pos calls.letters]
  rcases spaces : gap with _ | ⟨c, gap⟩
  · simp [show Text.isWord '(' = false by decide]
  · have outside := Text.not_isWord_of_isBlank (calls.spaced c (spaces ▸ List.mem_cons_self))
    simp [outside]

theorem Calls.not_veers : ¬Veers code := by
  rintro ⟨first, space, c, rest, word, blank, solid, other, outside, same⟩
  exact other (calls.cut word blank solid outside same).2.2.1

theorem Calls.no_mark {first space rest : List Char} {c : Char} (word : IsWordText first) (blank : IsBlankText space)
    (solid : Text.isBlank c = false) (outside : Text.isWord c = false) (other : c ≠ '(') :
    code ≠ first ++ (space ++ c :: rest) :=
  fun same => calls.not_veers ⟨first, space, c, rest, word, blank, solid, other, fun _ => outside, same⟩

theorem Calls.no_lead {parts : List Pattern} (leads : ∀ part ∈ parts, Leads part) {lead back : List Char}
    (led : (inOrder parts).Spells lead) (goes : GoesOn back) (same : code = lead ++ back) : lead = [] := by
  rcases (leads_inOrder leads lead back led goes).2 with none | veers
  · exact none
  · exact absurd (same ▸ veers) calls.not_veers

omit calls

theorem goesOn_word {name rest : List Char} (named : word.Spells name) : GoesOn (name ++ rest) := by
  obtain ⟨some, inside⟩ := spells_run1.mp named
  obtain ⟨c, more, rfl⟩ := List.exists_cons_of_ne_nil some
  obtain ⟨solid, other⟩ := solid_of_word (inside c List.mem_cons_self)
  exact ⟨[], c, more ++ rest, nofun, solid, other, rfl⟩

theorem leads_word_keyword {text : String} (word : text.toList ≠ [] ∧ IsWordText text.toList) :
    Leads (keyword text) := by
  refine leads_keyword fun s spelled => ?_
  rw [spells_literal.mp spelled]
  exact word

theorem leads_keywords {choices : List String} (given : choices ≠ [])
    (words : ∀ choice ∈ choices, choice.toList ≠ [] ∧ IsWordText choice.toList) : Leads (keywords choices) := by
  refine leads_keyword fun s spelled => ?_
  obtain ⟨choice, member, rfl⟩ := (spells_words given).mp spelled
  exact words choice member

theorem leads_dotted (front : List Char) {text : String} (dotted : text.toList = front ++ ['.'])
    (letters : IsWordText front) : Leads (literal text) := by
  intro _ back spelled _
  rw [spells_literal.mp spelled, dotted]
  constructor
  · rcases front with _ | ⟨c, front⟩
    · exact ⟨[], '.', back, nofun, by decide, by decide, rfl⟩
    · obtain ⟨solid, other⟩ := solid_of_word (letters c List.mem_cons_self)
      exact ⟨[], c, front ++ ['.'] ++ back, nofun, solid, other, rfl⟩
  · exact Or.inr ⟨front, [], '.', back, letters, nofun, by decide, by decide, fun _ => by decide, by simp⟩

include calls

theorem Calls.form_spells (front : List Pattern) {back : List Pattern} (leads : ∀ part ∈ front, Leads part)
    (ungrouped : (inOrder back).Ungrouped) {found : Match}
    (searched : (seq atStart (inOrder (front ++ group .subject word :: back))).search? code = some found) :
    (inOrder front).Spells [] ∧ ∃ tail, word.Spells found.subject ∧ (inOrder back).Spells tail ∧
      code = found.subject ++ (tail ++ found.rest) := by
  -- In a call, no form that is bound to the start reads anything in front of its subject.
  rw [search_anchored] at searched
  obtain ⟨lead, tail, led, named, followed, after, whole⟩ := matchAt_spells ungrouped searched
  obtain rfl := calls.no_lead leads led (goesOn_word named) whole
  rw [after] at whole
  exact ⟨led, tail, named, followed, whole⟩

theorem Calls.no_class : declaredClass? Brace.classForms code = none := by
  cases declared : declaredClass? Brace.classForms code with
  | none => rfl
  | some found =>
      obtain ⟨form, member, searched⟩ := declaredClass_search declared
      obtain rfl := List.mem_singleton.mp member
      let front := [optional (keyword "export"), optional (keyword "default"), optional (keyword "abstract"),
        keyword "class"]
      have leads : ∀ part ∈ front, Leads part := by
        simp only [front, List.forall_mem_cons, List.not_mem_nil, false_implies, implies_true, and_true]
        exact ⟨leads_optional (leads_word_keyword (by decide)), leads_optional (leads_word_keyword (by decide)),
          leads_optional (leads_word_keyword (by decide)), leads_word_keyword (by decide)⟩
      have ungrouped : (inOrder []).Ungrouped := trivial
      obtain ⟨led, _⟩ := calls.form_spells front leads ungrouped searched
      simp [front, keyword, Spells] at led

theorem Calls.no_property : Brace.functionProperty.pattern.search? code = none := by
  cases searched : Brace.functionProperty.pattern.search? code with
  | none => rfl
  | some found =>
      have ungrouped : (inOrder [blanks, Pattern.char ':', blanks, optional (keyword "async"), literal "function",
          wordEdge]).Ungrouped := by
        simp [Ungrouped, Each, blanks, blanks1, Pattern.char, keyword]
      obtain ⟨_, tail, named, ⟨gap, _, blank, ⟨_, rest, colon, _, rfl⟩, rfl⟩, whole⟩ :=
        calls.form_spells [] (List.forall_mem_nil _) ungrouped searched
      obtain rfl := spells_char.mp colon
      rw [List.append_assoc] at whole
      exact absurd whole (calls.no_mark (spells_run1.mp named).2 blank (by decide) (by decide) (by decide))

theorem Calls.no_arrow : Brace.assignedArrow.pattern.search? code = none := by
  cases searched : Brace.assignedArrow.pattern.search? code with
  | none => rfl
  | some found =>
      let front := [optional (keyword "export"), optional (keywords ["const", "let", "var"]),
        many (keywords ["public", "private", "protected", "static", "readonly"])]
      have leads : ∀ part ∈ front, Leads part := by
        simp only [front, List.forall_mem_cons, List.not_mem_nil, false_implies, implies_true, and_true]
        exact ⟨leads_optional (leads_word_keyword (by decide)),
          leads_optional (leads_keywords (by decide) (by decide)), leads_many (leads_keywords (by decide) (by decide))⟩
      have ungrouped : (inOrder [blanks, optional Brace.typeAnnotation, Pattern.char '=', blanks,
          optional (keyword "async"), either parentheses word, blanks, optional Brace.typeAnnotation,
          literal "=>"]).Ungrouped := by
        simp [Ungrouped, Each, blanks, blanks1, Pattern.char, keyword, Brace.typeAnnotation, parentheses, word]
      obtain ⟨_, tail, named, ⟨gap, _, blank, ⟨type, _, typed, ⟨_, rest, equals, _, rfl⟩, rfl⟩, rfl⟩, whole⟩ :=
        calls.form_spells front leads ungrouped searched
      obtain rfl := spells_char.mp equals
      have letters := (spells_run1.mp named).2
      rcases typed with ⟨_, more, colon, _, rfl⟩ | rfl
      · obtain rfl := spells_char.mp colon
        exact absurd (by simpa using whole)
          (calls.no_mark letters blank (by decide : Text.isBlank ':' = false) (by decide) (by decide))
      · exact absurd (by simpa using whole)
          (calls.no_mark letters blank (by decide : Text.isBlank '=' = false) (by decide) (by decide))

theorem Calls.no_member : Brace.exportedMember.pattern.search? code = none := by
  cases searched : Brace.exportedMember.pattern.search? code with
  | none => rfl
  | some found =>
      let front := [optional (literal "module."), literal "exports."]
      have leads : ∀ part ∈ front, Leads part := by
        simp only [front, List.forall_mem_cons, List.not_mem_nil, false_implies, implies_true, and_true]
        exact ⟨leads_optional (leads_dotted "module".toList rfl (by decide)),
          leads_dotted "exports".toList rfl (by decide)⟩
      have ungrouped : (inOrder [blanks, Pattern.char '=', blanks, optional (keyword "async"),
          anyOf [seq (literal "function") wordEdge, inOrder [parentheses, blanks, literal "=>"],
            inOrder [word, blanks, literal "=>"]]]).Ungrouped := by
        simp [Ungrouped, Each, blanks, blanks1, Pattern.char, keyword, parentheses, word]
      obtain ⟨led, _⟩ := calls.form_spells front leads ungrouped searched
      simp [front] at led

theorem Calls.no_function (other : ¬"function".toList <+: name) : Brace.namedFunction.pattern.search? code = none := by
  cases searched : Brace.namedFunction.pattern.search? code with
  | none => rfl
  | some found =>
      let front := [optional (keyword "export"), optional (keyword "default"), optional (keyword "async")]
      let back := [literal "function", blanks, optional (Pattern.char '*'), blanks, subject, blanks, Pattern.char '(']
      have matched := (search_anchored (inOrder (front ++ back)) code).symm.trans searched
      obtain ⟨stop, first, _⟩ := Option.map_eq_some_iff.mp matched
      obtain ⟨middle, reached, member⟩ := mem_inOrder_append.mp (List.mem_of_mem_head? first)
      obtain ⟨lead, led, before⟩ := places_spell _ _ _ reached
      obtain ⟨_, ⟨_, rest, function, _, rfl⟩, after⟩ := places_spell _ _ _ member
      obtain rfl := spells_literal.mp function
      have leads : ∀ part ∈ front, Leads part := by
        simp only [front, List.forall_mem_cons, List.not_mem_nil, false_implies, implies_true, and_true]
        exact ⟨leads_optional (leads_word_keyword (by decide)), leads_optional (leads_word_keyword (by decide)),
          leads_optional (leads_word_keyword (by decide))⟩
      have goes : GoesOn middle.ahead :=
        ⟨[], 'f', "unction".toList ++ rest ++ stop.ahead, nofun, by decide, by decide, after.ahead⟩
      obtain rfl := calls.no_lead leads led goes before.ahead
      have whole : code = "function".toList ++ (rest ++ stop.ahead) := by
        rw [← List.append_assoc, ← after.ahead]
        exact before.ahead
      have letters : IsWordText "function".toList := by decide
      have taken := calls.first_word
      rw [whole, List.takeWhile_append_of_pos letters] at taken
      exact absurd ⟨_, taken⟩ other

theorem Calls.no_front {front : List Char} (led : (inOrder methodFront).Spells front) {back : List Char}
    (goes : GoesOn back) (same : code = front ++ back) : front = [] := by
  have leads : ∀ part ∈ methodFront, Leads part := by
    simp only [methodFront, List.forall_mem_cons, List.not_mem_nil, false_implies, implies_true, and_true]
    exact ⟨leads_many (leads_keywords (by decide) (by decide)),
      leads_optional (leads_char (by decide) (by decide) (by decide)), leads_blanks⟩
  exact calls.no_lead leads led goes same

/-- Arguments that look like parameters with a body behind them. -/
def Headed (args : List Char) : Prop :=
  ∃ params between rest, ')' ∉ params ∧ IsResult between ∧ args = params ++ ')' :: (between ++ '\x7b' :: rest)

theorem Calls.method_headed {found : Match} (searched : Brace.shorthandMethod.pattern.search? code = some found) :
    found.subject = name ∧ found.afterSubject = gap ++ '(' :: args ∧ Headed args := by
  obtain ⟨front, _, params, between, led, named, ⟨space, bracket, more, blank, further, angled, rfl⟩, unclosed, result,
    whole, after⟩ := methodForm_spells searched
  obtain rfl := calls.no_front led (goesOn_word named) whole
  have letters := (spells_run1.mp named).2
  rw [after] at whole
  rcases angled with rfl | ⟨inner, _, rfl⟩
  · have all : IsBlankText (space ++ more) := IsBlankText.append blank further
    obtain ⟨names, gaps, _, rests⟩ := calls.cut letters all (by decide : Text.isBlank '(' = false) (fun _ => by decide)
      (by simpa using whole)
    refine ⟨names.symm, ?_, params, between, found.rest, unclosed, result, rests⟩
    rw [after, gaps, rests]
    simp
  · exact absurd (by simpa using whole)
      (calls.no_mark letters blank (by decide : Text.isBlank '<' = false) (by decide) (by decide))

theorem Calls.headed_method (headed : Headed args) :
    ∃ found, Brace.shorthandMethod.pattern.search? code = some found := by
  obtain ⟨params, between, rest, unclosed, result, rfl⟩ := headed
  let parts := optional (Pattern.char '*') :: blanks :: group .subject word :: methodTail
  have tail : (inOrder methodTail).Spells (gap ++ '(' :: (params ++ ')' :: (between ++ ['\x7b']))) :=
    spells_methodTail.mpr
      ⟨gap, params, between, ⟨gap, [], [], calls.spaced, nofun, Or.inl rfl, by simp⟩, unclosed, result, rfl⟩
  have named : (group .subject word).Spells name := spells_run1.mpr ⟨calls.given, calls.letters⟩
  have plain : (inOrder parts).Plain := by
    simp [parts, methodTail, blanks, word, parentheses, angleBrackets, resultType]
  have spelled : (inOrder parts).Spells (name ++ (gap ++ '(' :: (params ++ ')' :: (between ++ ['\x7b'])))) :=
    ⟨[], _, Or.inr rfl, ⟨[], _, nofun, ⟨name, _, named, tail, rfl⟩, rfl⟩, rfl⟩
  let start : Place := { behind := [], ahead := code }
  have ahead : start.ahead = name ++ (gap ++ '(' :: (params ++ ')' :: (between ++ ['\x7b']))) ++ rest := by
    simp [start, calls.whole]
  obtain ⟨stop, reached, _⟩ := spells_reach plain spelled ahead
  have member : stop ∈ (inOrder (methodFront ++ group .subject word :: methodTail)).places start :=
    mem_inOrder_cons.mpr ⟨start, self_mem_many _ start, reached⟩
  rw [shorthandMethod_eq, search_anchored]
  exact Option.isSome_iff_exists.mp (matchAt_isSome.mpr ⟨stop, member⟩)

structure IsCallee (name : List Char) : Prop where
  starts : name.head?.any startsName = true
  unreserved : isReserved (String.ofList name) = false
  other : ¬"function".toList <+: name

theorem Calls.called (callee : IsCallee name) : String.ofList name ∈ calledNames code := by
  obtain ⟨c, rest, rfl⟩ := List.exists_cons_of_ne_nil calls.given
  have first := calls.first_word
  have behind : code.dropWhile Text.isWord = gap ++ '(' :: args := by
    have whole := List.takeWhile_append_dropWhile (p := Text.isWord) (l := code)
    rw [first] at whole
    exact List.append_cancel_left (whole.trans calls.whole)
  have paren : (gap ++ '(' :: args).dropWhile Text.isBlank = '(' :: args := by
    rw [List.dropWhile_append_of_pos calls.spaced]
    exact List.dropWhile_cons_of_neg (by decide)
  have isCall : isCalled code = true := by rw [isCalled, behind, paren]; rfl
  have listed : c :: rest ∈ calledWords false code := by
    have starts : startsName c = true := callee.starts
    have shape : code = c :: (rest ++ (gap ++ '(' :: args)) := calls.whole
    rw [shape] at first isCall ⊢
    rw [calledWords, starts, isCall, first]
    exact List.mem_append_left _ (List.mem_singleton_self _)
  rw [calledNames_eq]
  exact List.mem_filter.mpr ⟨List.mem_map_of_mem listed, by rw [callee.unreserved]; rfl⟩

theorem Calls.declared (callee : IsCallee name) (headed : Headed args) : ∃ isAsync exported,
    Braces.literal.declaration? code =
      some (.routine (String.ofList name) .method isAsync exported none, gap ++ '(' :: args) := by
  obtain ⟨found, searched⟩ := calls.headed_method headed
  obtain ⟨named, after, _⟩ := calls.method_headed searched
  have method : declared? Brace.shorthandMethod.pattern code = some found := by
    rw [declared?, searched]
    simp [named, callee.unreserved]
  have function := declared_none (calls.no_function callee.other)
  have routine : declaredRoutine? Brace.routineForms code = some (Brace.shorthandMethod, found) := by
    rw [declaredRoutine?, Brace.routineForms, List.findSome?_cons, function, Option.map_none, List.findSome?_cons,
      method]
    rfl
  have outside : declaredClass? Braces.literal.classForms code = none := calls.no_class
  have declared : Braces.literal.declaration? code =
      some (Braces.literal.routineOf code Brace.shorthandMethod found, found.afterSubject) := by
    rw [Braces.declaration?, outside]
    exact congrArg (Option.map _) routine
  obtain ⟨isAsync, exported, told⟩ : ∃ isAsync exported, Braces.literal.routineOf code Brace.shorthandMethod found =
      .routine (String.ofList found.subject) .method isAsync exported none := ⟨_, _, rfl⟩
  exact ⟨isAsync, exported, by rw [declared, told, named, after]⟩

theorem Calls.undeclared (callee : IsCallee name) (plain : ¬Headed args) : Braces.literal.declaration? code = none := by
  have method : Brace.shorthandMethod.pattern.search? code = none := by
    cases searched : Brace.shorthandMethod.pattern.search? code with
    | none => rfl
    | some found => exact absurd (calls.method_headed searched).2.2 plain
  have undeclared : ∀ form ∈ Brace.routineForms, (declared? form.pattern code).map (form, ·) = none := by
    simp [Brace.routineForms, declared_none, calls.no_function callee.other, method, calls.no_property, calls.no_arrow,
      calls.no_member]
  have routine : declaredRoutine? Brace.routineForms code = none := List.findSome?_eq_none_iff.mpr undeclared
  have outside : declaredClass? Braces.literal.classForms code = none := calls.no_class
  rw [Braces.declaration?, outside]
  exact congrArg (Option.map _) routine

end statements

section recorded

def BracedScan.routineAround? (scan : BracedScan) (code : List Char) : Option Nat :=
  (scan.findings.dropWaiting scan.previous code).innermost?

theorem stepCode_records {scan : BracedScan} {code : List Char} {place : Nat}
    (around : scan.routineAround? code = some place) (braces : Braces) (undeclared : braces.declaration? code = none)
    (raw : List Char) (line : Nat) :
    (scan.stepCode braces code raw line).findings.routines =
      scan.findings.routines.modify place fun routine => Findings.withLine routine code code raw line := by
  let noted := braces.noteImports (scan.findings.dropWaiting scan.previous code) (Text.trim raw) line
  have inner : noted.innermost? = some place := by
    rw [← around, BracedScan.routineAround?, Findings.innermost?, noteImports_scopes]
    rfl
  have routines : noted.routines = scan.findings.routines := by
    rw [noteImports_routines, dropWaiting_routines]
  have recorded : (scan.stepCode braces code raw line).findings.routines =
      (noted.recordLine code code raw line).routines := by
    rw [BracedScan.stepCode, undeclared]
    rfl
  rw [recorded, Findings.recordLine, inner, ← routines]

theorem step_records {braces : Braces} {scan : BracedScan} {raw : List Char} {place : Nat}
    (outside : (braces == .typed && scan.inImports) = false) (plain : (braces.marks raw).opensImports = false)
    (around : scan.routineAround? (scan.codeOf raw) = some place)
    (undeclared : braces.declaration? (scan.codeOf raw) = none) (given : scan.codeOf raw ≠ []) (line : Nat) :
    (scan.step braces raw line).findings.routines = scan.findings.routines.modify place fun routine =>
      Findings.withLine routine (scan.codeOf raw) (scan.codeOf raw) raw line := by
  let commented := { scan with inComment := (bracedCode scan.inComment raw).2 }
  have step : scan.step braces raw line = commented.stepCode braces (scan.codeOf raw) raw line := by
    have solid : ¬(scan.codeOf raw).isEmpty = true := by simpa using given
    rw [step_eq]
    dsimp only
    rw [outside, opensImports_eq, plain]
    exact if_neg solid
  have same : commented.routineAround? (scan.codeOf raw) = some place := around
  rw [step]
  exact stepCode_records same braces undeclared raw line

variable {path text : String} {count place : Nat}

theorem line_recorded {braces : Braces} (bound : count < (Text.lines text.toList).length)
    (outside : (braces == .typed && (bracedAfter braces path (Text.lines text.toList) count).inImports) = false)
    (plain : (braces.marks (Text.lines text.toList)[count]).opensImports = false)
    (undeclared : braces.declaration? (codeAt braces path (Text.lines text.toList) count) = none)
    (given : codeAt braces path (Text.lines text.toList) count ≠ [])
    (around : (bracedAfter braces path (Text.lines text.toList) count).routineAround?
      (codeAt braces path (Text.lines text.toList) count) = some place) :
    ∃ routine, (ofText path text braces.dialect).routines[place]? = some routine ∧
      (∀ callee ∈ calledNames (codeAt braces path (Text.lines text.toList) count),
        ⟨callee, (count + 1 : Nat)⟩ ∈ routine.outgoing) ∧
      ∀ decision ∈ Findings.decisionOf? routine.file routine.id (codeAt braces path (Text.lines text.toList) count)
        (Text.lines text.toList)[count] (count + 1), decision ∈ routine.decisions := by
  let lines := Text.lines text.toList
  let scan := bracedAfter braces path lines count
  rw [codeAt_eq _ _ bound] at undeclared given around ⊢
  have step := step_records outside plain around undeclared given (count + 1)
  rw [← bracedAfter_succ braces path bound] at step
  have findings : ∀ size, findingsOf path braces.dialect (lines.take size) =
      (bracedAfter braces path lines size).findings := by
    intro size
    rw [findingsOf_braces, bracedAfter, bracedAfter, List.take_length]
  obtain ⟨routine, found⟩ : ∃ routine, scan.findings.routines[place]? = some routine := by
    obtain ⟨scope, member, kind⟩ := innermost_scope around
    obtain ⟨ledger, _, booked⟩ := findingsOf_booked path braces.dialect (lines.take count)
    rw [findings] at booked
    have inside := booked.placed scope ((dropWaiting_scopes _ _ _).subset member) place kind
    exact ⟨_, List.getElem?_eq_getElem inside⟩
  let code := scan.codeOf lines[count]
  let extended := Findings.withLine routine code code lines[count] (count + 1)
  have reached : (findingsOf path braces.dialect (lines.take (count + 1))).routines[place]? = some extended := by
    rw [findings, step, List.getElem?_modify, found]
    exact congrArg some (if_pos rfl)
  obtain ⟨later, arrived, grown⟩ := (findingsOf_continues path braces.dialect (lines.take (count + 1))
    (lines.drop (count + 1))).routines place extended reached
  rw [List.take_append_drop] at arrived
  have same := grown.declared
  have finished : (ofText path text braces.dialect).routines[place]? =
      (findingsOf path braces.dialect lines).routines[place]?.map fun routine =>
        { routine with exported := (findingsOf path braces.dialect lines).isExported routine } := List.getElem?_map
  refine ⟨_, finished.trans (congrArg (Option.map _) arrived), ?_, ?_⟩
  · intro callee called
    have listed : ⟨callee, (count + 1 : Nat)⟩ ∈ extended.outgoing :=
      List.mem_append_right _ (List.mem_map_of_mem called)
    exact grown.calls.subset listed
  · intro decision decided
    have file : later.file = extended.file := (congrArg Routine.file same :)
    have id : later.id = extended.id := (congrArg Routine.id same :)
    have told : decision ∈ Findings.decisionOf? later.file later.id code lines[count] (count + 1) := decided
    rw [file, id] at told
    have listed : decision ∈ extended.decisions := List.mem_append_right _ (Option.mem_toList.mpr told)
    exact grown.decisions.subset listed

theorem call_recorded (bound : count < (Text.lines text.toList).length)
    (undeclared : Braces.literal.declaration? (codeAt .literal path (Text.lines text.toList) count) = none)
    {callee : String} (called : callee ∈ calledNames (codeAt .literal path (Text.lines text.toList) count))
    (around : (bracedAfter .literal path (Text.lines text.toList) count).routineAround?
      (codeAt .literal path (Text.lines text.toList) count) = some place) :
    ∃ routine, (ofText path text .brace).routines[place]? = some routine ∧
      ⟨callee, (count + 1 : Nat)⟩ ∈ routine.outgoing := by
  have given : codeAt .literal path (Text.lines text.toList) count ≠ [] := by
    intro none
    rw [none] at called
    cases called
  obtain ⟨routine, found, calls, _⟩ := line_recorded bound rfl rfl undeclared given around
  exact ⟨routine, found, calls callee called⟩

end recorded

structure MethodRead (code : List Char) : Prop where
  closed : ∀ found, declaredRoutine? Brace.routineForms code = some (Brace.shorthandMethod, found) →
    ∃ lead params between, IsLead lead ∧ ')' ∉ params ∧ IsResult between ∧
      found.afterSubject = lead ++ '(' :: (params ++ ')' :: (between ++ '\x7b' :: found.rest)) ∧
      (closes 0 (params ++ ')' :: between) = true ↔ '(' ∉ params ∨ closes (params.count '(' - 1) between = true)
  called : ∀ name gap args, Calls name gap args code → IsCallee name → String.ofList name ∈ calledNames code
  declared : ∀ name gap args, Calls name gap args code → IsCallee name → Headed args → ∃ isAsync exported,
    Braces.literal.declaration? code =
      some (.routine (String.ofList name) .method isAsync exported none, gap ++ '(' :: args)
  undeclared : ∀ name gap args, Calls name gap args code → IsCallee name → ¬Headed args →
    Braces.literal.declaration? code = none

theorem methodRead (code : List Char) : MethodRead code where
  closed found declared := by
    obtain ⟨_, lead, params, between, _, _, isLead, unclosed, result, _, after⟩ :=
      methodForm_spells (declared_search (declaredRoutine_form declared))
    exact ⟨lead, params, between, isLead, unclosed, result, after, closes_params unclosed between⟩
  called _ _ _ calls callee := calls.called callee
  declared _ _ _ calls callee headed := calls.declared callee headed
  undeclared _ _ _ calls callee plain := calls.undeclared callee plain

/-- A line is taken for a method up to the first parenthesis that closes. A call is taken for one if and only if blanks
or a result type and a brace are behind that parenthesis, and else it goes to the routine around it. -/
theorem ofText_methods (path text : String) :
    let lines := Text.lines text.toList
    (∀ code, MethodRead code) ∧
    ∀ count < lines.length, ∀ name gap args, Calls name gap args (codeAt .literal path lines count) →
      IsCallee name → ¬Headed args → ∀ place,
        (bracedAfter .literal path lines count).routineAround? (codeAt .literal path lines count) = some place →
          ∃ routine, (ofText path text .brace).routines[place]? = some routine ∧
            ⟨String.ofList name, (count + 1 : Nat)⟩ ∈ routine.outgoing := by
  intro lines
  refine ⟨methodRead, ?_⟩
  intro count bound name gap args calls callee plain place around
  exact call_recorded bound (calls.undeclared callee plain) (calls.called callee) around

/-- A call with a function literal is taken for a method, and its parenthesis is still open at the brace. A call with a
name as its argument is found with the routine around it. -/
theorem ofText_methods_literal :
    (closes 0 "x, function (y) ".toList = false ∧ ∃ isAsync exported,
      Braces.literal.declaration? "it(x, function (y) \x7b".toList =
        some (.routine "it" .method isAsync exported none, "(x, function (y) \x7b".toList)) ∧
    ∃ routine, (ofText "a.js" "function f() \x7b\n  it(x);\n\x7d" .brace).routines[0]? = some routine ∧
      ⟨"it", 2⟩ ∈ routine.outgoing := by
  have callee : IsCallee "it".toList := ⟨by decide, by decide, by decide⟩
  have methods := ofText_methods "a.js" "function f() \x7b\n  it(x);\n\x7d"
  refine ⟨⟨by decide, ?_⟩, ?_⟩
  · have calls : Calls "it".toList [] "x, function (y) \x7b".toList "it(x, function (y) \x7b".toList :=
      ⟨by decide, by decide, by decide, by decide⟩
    have headed : Headed "x, function (y) \x7b".toList :=
      ⟨"x, function (y".toList, [' '], [], by decide, Or.inl (by decide), by decide⟩
    exact (methods.1 _).declared _ _ _ calls callee headed
  · have calls : Calls "it".toList [] "x);".toList
        (codeAt .literal "a.js" (Text.lines "function f() \x7b\n  it(x);\n\x7d".toList) 1) :=
      ⟨by decide, by decide, by decide, by decide +kernel⟩
    have plain : ¬Headed "x);".toList := by
      rintro ⟨params, between, rest, _, _, same⟩
      have brace : '\x7b' ∈ "x);".toList := by simp [same]
      exact absurd brace (by decide)
    exact methods.2 1 (by decide) _ _ _ calls callee plain 0 (by decide +kernel)

end FlowAtlas.Extraction
