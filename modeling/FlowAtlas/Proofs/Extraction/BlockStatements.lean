import FlowAtlas.Proofs.Extraction.Comments
import FlowAtlas.Proofs.Extraction.Openings
import FlowAtlas.Proofs.Extraction.TypedHeads

namespace FlowAtlas.Extraction

open Pattern

def blockWords : List String :=
  ["if", "else", "for", "foreach", "while", "do", "switch", "case", "break", "continue", "return", "try", "catch",
   "finally", "throw", "goto", "defer", "go", "match", "loop", "when", "select", "yield", "await", "with", "assert",
   "synchronized", "fixed", "checked", "unchecked", "lock"]

section openers

def OpensWith (words : List String) (pattern : Pattern) : Prop :=
  ∀ front back, pattern.Spells front → ∃ word ∈ words, firstWord (front ++ back) = word.toList

variable {words : List String} {first : Pattern} {rest : List Pattern}

theorem opens_inOrder (opens : OpensWith words first) : OpensWith words (inOrder (first :: rest)) := by
  intro _ further spelled
  obtain ⟨front, back, leads, _, rfl⟩ := spells_inOrder_cons.mp spelled
  rw [List.append_assoc]
  exact opens front (back ++ further) leads

theorem opens_optional (opens : OpensWith words first) (others : OpensWith words (inOrder rest)) :
    OpensWith words (inOrder (optional first :: rest)) := by
  intro _ further spelled
  obtain ⟨front, back, leads, follows, rfl⟩ := spells_inOrder_cons.mp spelled
  rcases leads with leads | rfl
  · rw [List.append_assoc]
    exact opens front (back ++ further) leads
  · exact others back further follows

theorem opens_many (opens : OpensWith words first) (others : OpensWith words (inOrder rest)) :
    OpensWith words (inOrder (many first :: rest)) := by
  intro _ further spelled
  obtain ⟨_, back, ⟨pieces, leads, rfl⟩, follows, rfl⟩ := spells_inOrder_cons.mp spelled
  cases pieces with
  | nil => exact others back further follows
  | cons piece pieces =>
      rw [List.flatten_cons, List.append_assoc, List.append_assoc]
      exact opens piece _ (leads piece List.mem_cons_self)

theorem opens_blanks (letters : ∀ word ∈ words, IsWordText word.toList)
    (begins : ∀ s, first.Spells s → ∃ word ∈ words, BeginsWith word s) : OpensWith words (seq first blanks1) := by
  rintro _ back ⟨front, gap, spelled, spaced, rfl⟩
  obtain ⟨given, blank⟩ := spells_run1.mp spaced
  obtain ⟨word, member, more, rfl, stops⟩ := begins front spelled
  refine ⟨word, member, ?_⟩
  rw [List.append_assoc, List.append_assoc]
  apply firstWord_append (letters word member)
  cases more with
  | nil =>
      obtain ⟨c, gap, rfl⟩ := List.exists_cons_of_ne_nil given
      exact Text.not_isWord_of_isBlank (blank c List.mem_cons_self)
  | cons c more => exact stops

theorem begins_word (word : String) : BeginsWith word word.toList := ⟨[], (List.append_nil _).symm, rfl⟩

theorem begins_choice {choices : List String} (given : choices ≠ []) (among : choices ⊆ words) :
    ∀ s, (Pattern.words choices).Spells s → ∃ word ∈ words, BeginsWith word s := by
  intro s spelled
  obtain ⟨choice, member, rfl⟩ := (spells_words given).mp spelled
  exact ⟨choice, among member, begins_word choice⟩

theorem opens_search {body : Pattern} {code : List Char} {found : Match} (opens : OpensWith words body)
    (searched : (seq atStart body).search? code = some found) : ∃ word ∈ words, firstWord code = word.toList := by
  rw [search_anchored, matchAt?, Option.map_eq_some_iff] at searched
  obtain ⟨stop, first, _⟩ := searched
  obtain ⟨text, spelled, apart⟩ := places_spell _ _ _ (List.mem_of_mem_head? first)
  have whole : code = text ++ stop.ahead := apart.ahead
  rw [whole]
  exact opens text stop.ahead spelled

def openers : List String :=
  Generic.classModifiers ++ ["pub", "class", "struct", "interface", "enum", "trait", "impl", "object", "type", "func",
    "fn", "fun", "async", "const", "unsafe", "extern", "override", "suspend", "inline", "mutating"]

theorem openers_letters : ∀ word ∈ openers, IsWordText word.toList := by decide +kernel

theorem block_letters : ∀ word ∈ blockWords, IsWordText word.toList := by decide +kernel

theorem opens_keywords {choices : List String} (given : choices ≠ []) (among : choices ⊆ openers) :
    OpensWith openers (keywords choices) :=
  opens_blanks openers_letters (begins_choice given among)

theorem opens_keyword {text : String} (member : text ∈ openers) : OpensWith openers (keyword text) := by
  refine opens_blanks openers_letters fun s spelled => ⟨text, member, ?_⟩
  rw [spells_literal.mp spelled]
  exact begins_word text

theorem begins_visibility : ∀ s, Generic.visibility.Spells s → ∃ word ∈ openers, BeginsWith word s := by
  rintro _ ⟨_, back, spelled, limits, rfl⟩
  obtain rfl := spells_literal.mp spelled
  refine ⟨"pub", by decide, back, rfl, ?_⟩
  rcases limits with limits | rfl
  · obtain ⟨params, _, rfl⟩ := spells_parentheses.mp limits
    exact (by decide : Text.isWord '(' = false)
  · rfl

theorem begins_foreign : ∀ s, Generic.foreignModifier.Spells s → ∃ word ∈ openers, BeginsWith word s := by
  rintro _ ⟨_, back, spelled, abi, rfl⟩
  obtain rfl := spells_literal.mp spelled
  refine ⟨"extern", by decide, back, rfl, ?_⟩
  rcases abi with ⟨gap, more, spaced, _, rfl⟩ | rfl
  · obtain ⟨given, blank⟩ := spells_run1.mp spaced
    obtain ⟨c, gap, rfl⟩ := List.exists_cons_of_ne_nil given
    exact Text.not_isWord_of_isBlank (blank c List.mem_cons_self)
  · rfl

theorem opens_modifiers {choices : List String} {other : Pattern} (given : choices ≠ []) (among : choices ⊆ openers)
    (begins : ∀ s, other.Spells s → ∃ word ∈ openers, BeginsWith word s) :
    OpensWith openers (seq (either (Pattern.words choices) other) blanks1) := by
  refine opens_blanks openers_letters fun s spelled => ?_
  rcases spelled with spelled | spelled
  · exact begins_choice given among s spelled
  · exact begins s spelled

variable {word : String} {code : List Char} (member : word ∈ blockWords) (begins : BeginsWith word code)

include member begins

theorem block_unopened {body : Pattern} (opens : OpensWith openers body) : (seq atStart body).search? code = none := by
  cases searched : (seq atStart body).search? code with
  | none => rfl
  | some found =>
      obtain ⟨opener, among, same⟩ := opens_search opens searched
      rw [begins.firstWord_eq (block_letters word member)] at same
      have apart : ∀ word ∈ blockWords, word ∉ openers := by decide +kernel
      exact absurd (String.toList_inj.mp same ▸ among) (apart word member)

theorem block_no_class : declaredClass? Generic.classForms code = none := by
  refine List.findSome?_eq_none_iff.mpr fun form listed => declared_none ?_
  simp only [Generic.classForms, List.mem_cons, List.not_mem_nil, or_false] at listed
  rcases listed with rfl | rfl
  · exact block_unopened member begins (opens_many (opens_modifiers (by decide) (by decide) begins_visibility)
      (opens_inOrder (opens_keywords (by decide) (by decide))))
  · exact block_unopened member begins (opens_inOrder (opens_keyword (by decide)))

theorem block_no_receiver : Generic.receiverFunction.pattern.search? code = none :=
  block_unopened member begins (opens_inOrder (opens_keyword (by decide)))

theorem block_no_modified : Generic.modifiedFunction.pattern.search? code = none :=
  block_unopened member begins
    (opens_optional (opens_blanks openers_letters begins_visibility)
      (opens_many (opens_modifiers (by decide) (by decide) begins_foreign) (opens_inOrder (opens_keyword (by decide)))))

theorem block_no_function : Generic.declaredFunction.pattern.search? code = none :=
  block_unopened member begins
    (opens_many (opens_keywords (by decide) (by decide)) (opens_inOrder (opens_keywords (by decide) (by decide))))

end openers

section declared

variable {word : String} {code : List Char}

theorem bareMethod_reads {found : Match} (searched : Generic.bareMethod.pattern.search? code = some found) :
    found.subject = firstWord code ∧ ∀ word ∈ Generic.statementWords, firstWord code ≠ word.toList := by
  let back := [blanks, parentheses, blanks, Pattern.char '\x7b']
  have anchored : (inOrder ([Generic.noStatement] ++ group .subject Pattern.word :: back)).matchAt? [] code =
      some found := (search_anchored _ code).symm.trans searched
  have ungrouped : (inOrder back).Ungrouped := by
    simp [back, Ungrouped, Each, blanks, parentheses, Pattern.char]
  obtain ⟨_, _, rfl, named, ⟨gap, _, blank, ⟨_, rest, listed, _, rfl⟩, rfl⟩, after, whole⟩ :=
    matchAt_spells ungrouped anchored
  obtain ⟨params, _, rfl⟩ := spells_parentheses.mp listed
  constructor
  · have paren : ('(' :: (params ++ [')'] ++ rest ++ found.rest)).head?.any Text.isWord = false :=
      (by decide : Text.isWord '(' = false)
    have split : code = found.subject ++ (gap ++ '(' :: (params ++ [')'] ++ rest ++ found.rest)) := by
      rw [after] at whole
      simpa using whole
    rw [split]
    exact (firstWord_append (spells_run1.mp named).2 (blank_stops blank paren)).symm
  · obtain ⟨stop, first, _⟩ := Option.map_eq_some_iff.mp anchored
    obtain ⟨middle, reached, _⟩ := mem_inOrder_cons.mp (List.mem_of_mem_head? first)
    exact (mem_noStatement.mp reached).2

/-- The list of words of statements lacks the word, and the text goes on like a declaration whose name is free. -/
def Mistaken (word : String) (code : List Char) : Prop :=
  word ∉ Generic.statementWords ∧ ∃ name, TypedHead name code ∧ isReserved (String.ofList name) = false

example : blockWords.filter (fun word => !Generic.statementWords.contains word) =
    ["foreach", "break", "continue", "finally", "match", "loop", "when", "select", "with", "assert"] := by
  decide +kernel

variable (member : word ∈ blockWords) (begins : BeginsWith word code)

include member begins

theorem block_free : (∀ other ∈ Generic.statementWords, firstWord code ≠ other.toList) ↔
    word ∉ Generic.statementWords := by
  rw [begins.firstWord_eq (block_letters word member)]
  constructor
  · exact fun free listed => free word listed rfl
  · exact fun unlisted other listed same => unlisted (String.toList_inj.mp same ▸ listed)

theorem block_no_method : declared? Generic.bareMethod.pattern code = none := by
  cases searched : Generic.bareMethod.pattern.search? code with
  | none => exact declared_none searched
  | some found =>
      obtain ⟨subject, free⟩ := bareMethod_reads searched
      rw [begins.firstWord_eq (block_letters word member)] at subject
      -- A word that the list of statements lacks is reserved, and so no name.
      have known : ∀ word ∈ blockWords, word ∈ Generic.statementWords ∨ isReserved word = true := by decide +kernel
      have reserved := (known word member).resolve_left ((block_free member begins).mp free)
      rw [declared?, searched]
      simp [subject, reserved]

theorem block_typed : (∃ found, declared? Generic.typedFunction.pattern code = some found) ↔ Mistaken word code := by
  constructor
  · rintro ⟨found, declared⟩
    obtain ⟨head, free⟩ := typedFunction_sound (declared_search declared)
    exact ⟨(block_free member begins).mp free, found.subject, head, declared_unreserved declared⟩
  · rintro ⟨unlisted, name, head, unreserved⟩
    obtain ⟨found, searched⟩ := typedFunction_complete head ((block_free member begins).mpr unlisted)
    refine ⟨found, ?_⟩
    rw [declared?, searched]
    simp [typedHead_unique (typedFunction_sound searched).1 head, unreserved]

theorem block_routine : declaredRoutine? Generic.routineForms code =
    (declared? Generic.typedFunction.pattern code).map (Generic.typedFunction, ·) := by
  have receiver := declared_none (block_no_receiver member begins)
  have modified := declared_none (block_no_modified member begins)
  have function := declared_none (block_no_function member begins)
  have method := block_no_method member begins
  simp only [declaredRoutine?, Generic.routineForms, List.findSome?_cons, List.findSome?_nil, receiver, modified,
    function, method, Option.map_none]
  cases declared? Generic.typedFunction.pattern code <;> rfl

theorem block_declares :
    (Mistaken word code ∧ ∃ name kind isAsync exported receiver behind,
      Braces.typed.declaration? code = some (.routine name kind isAsync exported receiver, behind)) ∨
    (¬Mistaken word code ∧ Braces.typed.declaration? code = none) := by
  have outside : declaredClass? Braces.typed.classForms code = none := block_no_class member begins
  have routine : declaredRoutine? Braces.typed.routineForms code = _ := block_routine member begins
  rw [← block_typed member begins]
  cases declared : declared? Generic.typedFunction.pattern code with
  | none =>
      refine Or.inr ⟨by simp, ?_⟩
      rw [Braces.declaration?, outside]
      exact congrArg (Option.map _) (routine.trans (by rw [declared, Option.map_none]))
  | some found =>
      obtain ⟨kind, isAsync, exported, receiver, told⟩ : ∃ kind isAsync exported receiver,
          Braces.typed.routineOf code Generic.typedFunction found =
            .routine (String.ofList found.subject) kind isAsync exported receiver := ⟨_, _, _, _, rfl⟩
      have declares : Braces.typed.declaration? code =
          some (Braces.typed.routineOf code Generic.typedFunction found, found.afterSubject) := by
        rw [Braces.declaration?, outside]
        exact congrArg (Option.map _) (routine.trans (by rw [declared, Option.map_some]))
      exact Or.inl ⟨⟨found, rfl⟩, _, kind, isAsync, exported, receiver, found.afterSubject, told ▸ declares⟩

end declared

section lines

variable {path : String} {lines : List (List Char)} {count : Nat} {word : String}

theorem block_marks {scan : BracedScan} {raw : List Char} (member : word ∈ blockWords)
    (begins : BeginsWith word (scan.codeOf raw)) : (Braces.typed.marks raw).opensImports = false := by
  let distinct := fun c => !Text.isBlank c && !isQuote c && !"import (".toList.contains c
  have told : blockWords.all (fun word => word.toList.any distinct) = true := by decide +kernel
  obtain ⟨c, among, apart⟩ := List.any_eq_true.mp (List.all_eq_true.mp told word member)
  obtain ⟨⟨solid, plain⟩, absent⟩ : (Text.isBlank c = false ∧ isQuote c = false) ∧ c ∉ "import (".toList := by
    simpa [distinct] using apart
  obtain ⟨rest, code, _⟩ := begins
  have held : c ∈ scan.codeOf raw := code ▸ List.mem_append_left rest among
  exact opensImports_of_mem solid absent (mem_bracedCode plain ((trim_sublist _).subset held)) .typed

theorem block_declared (member : word ∈ blockWords) (bound : count < lines.length)
    (begins : BeginsWith word (codeAt .typed path lines count)) :
    ((bracedAfter .typed path lines count).blocks .typed).declared? .typed lines[count] =
      if (bracedAfter .typed path lines count).inImports then none
      else Braces.typed.declaration? (codeAt .typed path lines count) := by
  rw [codeAt_eq _ _ bound] at begins ⊢
  have imports : ((bracedAfter .typed path lines count).blocks .typed).imports =
      (bracedAfter .typed path lines count).inImports := Bool.true_and _
  rw [Blocks.declared?, block_marks member begins, Bool.or_false, imports]
  rfl

theorem line_opened (path : String) {declaration : Declaration} {behind : List Char} (bound : count < lines.length) :
    ⟨count + 1, declaration, behind⟩ ∈ openings .generic lines ↔
      ((bracedAfter .typed path lines count).blocks .typed).declared? .typed lines[count] =
        some (declaration, behind) := by
  rw [openings, mem_bracedOpenings path]
  constructor
  · rintro ⟨place, _, line, declares⟩
    obtain rfl : place = count := (Nat.succ.inj line).symm
    exact declares
  · exact fun declares => ⟨count, bound, rfl, declares⟩

theorem statement_opened (member : word ∈ blockWords) (bound : count < lines.length)
    (begins : BeginsWith word (codeAt .typed path lines count)) {declaration : Declaration} {behind : List Char} :
    ⟨count + 1, declaration, behind⟩ ∈ openings .generic lines ↔
      (bracedAfter .typed path lines count).inImports = false ∧
        Braces.typed.declaration? (codeAt .typed path lines count) = some (declaration, behind) := by
  rw [line_opened path bound, block_declared member bound begins]
  cases (bracedAfter .typed path lines count).inImports <;> simp

theorem statement_no_class {text : String} (reads : Text.lines text.toList = lines) (member : word ∈ blockWords)
    (bound : count < lines.length) (begins : BeginsWith word (codeAt .typed path lines count)) :
    ∀ opened ∈ (ofText path text .generic).classes, opened.line ≠ (count + 1 : Nat) := by
  intro opened among same
  subst reads
  obtain ⟨classes, _⟩ := (findingsOf_openings path .generic (Text.lines text.toList)).finish
  have told : (opened.name, opened.line) ∈ (openings .generic (Text.lines text.toList)).filterMap Opening.class? :=
    classes ▸ List.mem_map_of_mem (f := fun opened : ClassDecl => (opened.name, opened.line)) among
  obtain ⟨⟨number, declaration, behind⟩, listed, tells⟩ := List.mem_filterMap.mp told
  obtain ⟨_, line, none⟩ := Opening.class_tells tells
  obtain rfl : number = count + 1 := Int.ofNat_inj.mp (line.symm.trans same)
  have declared := ((statement_opened member bound begins).mp listed).2
  rcases block_declares member begins with ⟨_, _, _, _, _, _, _, routine⟩ | ⟨_, nothing⟩
  · obtain ⟨rfl, rfl⟩ := Prod.mk.inj (Option.some.inj (routine.symm.trans declared))
    cases tells
  · cases nothing.symm.trans declared

theorem statement_routine {text : String} (reads : Text.lines text.toList = lines) (member : word ∈ blockWords)
    (bound : count < lines.length) (begins : BeginsWith word (codeAt .typed path lines count)) :
    (∃ routine ∈ (ofText path text .generic).routines, routine.line = (count + 1 : Nat)) ↔
      (bracedAfter .typed path lines count).inImports = false ∧
        Mistaken word (codeAt .typed path lines count) := by
  subst reads
  obtain ⟨_, routines⟩ := (findingsOf_openings path .generic (Text.lines text.toList)).finish
  constructor
  · rintro ⟨routine, among, same⟩
    have told : (routine.name, routine.line) ∈
        (openings .generic (Text.lines text.toList)).filterMap Opening.routine? :=
      routines ▸ List.mem_map_of_mem (f := fun routine : Routine => (routine.name, routine.line)) among
    obtain ⟨⟨number, declaration, behind⟩, listed, tells⟩ := List.mem_filterMap.mp told
    obtain rfl : number = count + 1 := Int.ofNat_inj.mp ((Opening.routine_tells tells).2.symm.trans same)
    obtain ⟨outside, declared⟩ := (statement_opened member bound begins).mp listed
    rcases block_declares member begins with ⟨mistaken, _⟩ | ⟨_, nothing⟩
    · exact ⟨outside, mistaken⟩
    · cases nothing.symm.trans declared
  · rintro ⟨outside, mistaken⟩
    obtain ⟨name, kind, isAsync, exported, receiver, behind, routine⟩ :=
      ((block_declares member begins).resolve_right fun other => other.1 mistaken).2
    have listed := (statement_opened member bound begins).mpr ⟨outside, routine⟩
    have told : (name, ((count + 1 : Nat) : Int)) ∈
        (openings .generic (Text.lines text.toList)).filterMap Opening.routine? :=
      List.mem_filterMap.mpr ⟨_, listed, rfl⟩
    rw [← routines] at told
    obtain ⟨found, among, same⟩ := List.mem_map.mp told
    exact ⟨found, among, (Prod.mk.inj same).2⟩

structure StatementTold (path : String) (lines : List (List Char)) (count : Nat) (raw : List Char) (word : String)
    (found : Extraction) : Prop where
  classes : ∀ opened ∈ found.classes, opened.line ≠ (count + 1 : Nat)
  routines : (∃ routine ∈ found.routines, routine.line = (count + 1 : Nat)) ↔
    (bracedAfter .typed path lines count).inImports = false ∧ Mistaken word (codeAt .typed path lines count)
  kept : ¬Mistaken word (codeAt .typed path lines count) → (bracedAfter .typed path lines count).inImports = false →
    ∀ place, (bracedAfter .typed path lines count).routineAround? (codeAt .typed path lines count) = some place →
      ∃ routine, found.routines[place]? = some routine ∧
        (∀ callee ∈ calledNames (codeAt .typed path lines count), ⟨callee, (count + 1 : Nat)⟩ ∈ routine.outgoing) ∧
        ∀ decision ∈ Findings.decisionOf? routine.file routine.id (codeAt .typed path lines count) raw (count + 1),
          decision ∈ routine.decisions

/-- A line whose code begins with a word of a statement declares no class. It declares a routine if and only if the word
is missing among those that begin no declaration and a free name with a parenthesis, and no semicolon behind it, comes
after it. Else it stays with the routine around it. -/
theorem ofText_statements (path text : String) :
    let lines := Text.lines text.toList
    ∀ count (bound : count < lines.length), ∀ word ∈ blockWords, BeginsWith word (codeAt .typed path lines count) →
      StatementTold path lines count lines[count] word (ofText path text .generic) := by
  intro lines count bound word member begins
  let code := codeAt .typed path lines count
  refine ⟨statement_no_class rfl member bound begins, statement_routine rfl member bound begins, ?_⟩
  intro other outside place around
  have undeclared := ((block_declares member begins).resolve_left fun mistaken => other mistaken.1).2
  have given : code ≠ [] := by
    intro none
    obtain ⟨rest, same, _⟩ := begins
    have some : ∀ word ∈ blockWords, word.toList ≠ [] := by decide +kernel
    exact some word member (List.append_eq_nil_iff.mp (same.symm.trans none)).1
  have plain : (Braces.typed.marks lines[count]).opensImports = false := by
    rw [codeAt_eq _ _ bound] at begins
    exact block_marks member begins
  have outsideImports : (Braces.typed == .typed && (bracedAfter .typed path lines count).inImports) = false :=
    (Bool.true_and _).trans outside
  exact line_recorded bound outsideImports plain undeclared given around

end lines

/-- A condition stays with the routine around it, and the head of a match is taken for a routine. -/
theorem ofText_statements_match :
    let text := "fn f(x: i32) \x7b\n    if h(x) \x7b\n    \x7d\n    match g(x) \x7b\n    \x7d\n\x7d\n"
    let lines := Text.lines text.toList
    (("if" ∈ blockWords ∧ BeginsWith "if" (codeAt .typed "a.rs" lines 1)) ∧
      ∃ routine, (ofText "a.rs" text .generic).routines[0]? = some routine ∧ ⟨"h", 2⟩ ∈ routine.outgoing) ∧
    ("match" ∈ blockWords ∧ BeginsWith "match" (codeAt .typed "a.rs" lines 3)) ∧
      ∃ routine ∈ (ofText "a.rs" text .generic).routines, routine.line = 4 := by
  intro text lines
  have statements := ofText_statements "a.rs" text
  have first : codeAt .typed "a.rs" lines 1 = "if h(x) \x7b".toList := by decide +kernel
  have second : codeAt .typed "a.rs" lines 3 = "match g(x) \x7b".toList := by decide +kernel
  have condition : BeginsWith "if" (codeAt .typed "a.rs" lines 1) := ⟨" h(x) \x7b".toList, first, by decide⟩
  have choice : BeginsWith "match" (codeAt .typed "a.rs" lines 3) := ⟨" g(x) \x7b".toList, second, by decide⟩
  refine ⟨⟨⟨by decide, condition⟩, ?_⟩, ⟨by decide, choice⟩, ?_⟩
  · have told := statements 1 (by decide +kernel) "if" (by decide) condition
    have listed : ¬Mistaken "if" (codeAt .typed "a.rs" lines 1) := fun mistaken => mistaken.1 (by decide)
    obtain ⟨routine, found, calls, _⟩ := told.kept listed (by decide +kernel) 0 (by decide +kernel)
    have called : "h" ∈ calledNames (codeAt .typed "a.rs" lines 1) := by
      rw [first]
      decide +kernel
    exact ⟨routine, found, calls "h" called⟩
  · have told := statements 3 (by decide +kernel) "match" (by decide) choice
    have head : TypedHead "g".toList (codeAt .typed "a.rs" lines 3) :=
      ⟨"match ".toList, [], [], "x) \x7b".toList, by decide, by decide,
        ⟨'g', [], by decide, by decide, rfl⟩, by decide, by decide, second⟩
    exact told.routines.mpr ⟨by decide +kernel, by decide, _, head, by decide⟩

end FlowAtlas.Extraction
