import FlowAtlas.Proofs.Extraction.Hidden

/-! Long literals with escapes: a lexer that knows of them, and the lines on which the code of an indented file is read
as the lexer reads it. -/

namespace FlowAtlas.Extraction

/-- A lexer between two characters. It is a reader to which a backslash in a long literal keeps the next character from
ending the literal, as in a short one. -/
structure Lexer where
  mode : Quoting := .code
  escaped : Bool := false
  deriving DecidableEq, Repr

namespace Lexer

def next (lexer : Lexer) (c : Char) : Lexer :=
  match lexer.mode with
  | .long quote seen =>
    if lexer.escaped then ⟨.long quote 0, false⟩
    else if c == '\\' then ⟨.long quote 0, true⟩
    else ⟨(Quoting.long quote seen).next c, false⟩
  | mode => ⟨mode.next c, false⟩

def after (lexer : Lexer) (s : List Char) : Lexer := s.foldl next lexer

def endLine (lexer : Lexer) : Lexer :=
  match lexer.mode with
  | .short quote true => ⟨.short quote false, false⟩
  | mode => ⟨mode.endLine, false⟩

def behind (lines : List (List Char)) : Lexer := lines.foldl (fun lexer line => (lexer.after line).endLine) {}

def masks (lexer : Lexer) (rest : List Char) : Bool :=
  lexer.escaped && lexer.mode.opened?.any fun quote => quote.text.isPrefixOf rest

def Unmasked (lexer : Lexer) : List Char → List Char → Prop
  | [], _ => True
  | c :: front, rest => lexer.masks (c :: front ++ rest) = false ∧ (lexer.next c).Unmasked front rest

instance decidableUnmasked : (lexer : Lexer) → (front rest : List Char) → Decidable (lexer.Unmasked front rest)
  | _, [], _ => .isTrue trivial
  | lexer, c :: front, rest => @instDecidableAnd _ _ inferInstance (decidableUnmasked (lexer.next c) front rest)

def continues (lexer : Lexer) : Bool :=
  match lexer.mode with
  | .short _ escaped => escaped
  | _ => false

/-- A line without escaped quotes that look like the end of their literal, at the end of which no short literal goes
on. -/
def Plainly (lexer : Lexer) (line : List Char) : Prop :=
  lexer.Unmasked line [] ∧ (lexer.after line).continues = false

instance (lexer : Lexer) (line : List Char) : Decidable (lexer.Plainly line) :=
  inferInstanceAs (Decidable (lexer.Unmasked line [] ∧ (lexer.after line).continues = false))

def PlainLines : Lexer → List (List Char) → Prop
  | _, [] => True
  | lexer, line :: rest => lexer.Plainly line ∧ PlainLines (lexer.after line).endLine rest

instance decidablePlainLines : (lexer : Lexer) → (lines : List (List Char)) → Decidable (lexer.PlainLines lines)
  | _, [] => .isTrue trivial
  | lexer, line :: rest => @instDecidableAnd _ _ inferInstance (decidablePlainLines (lexer.after line).endLine rest)

end Lexer

section steps

inductive Tracks : Quoting → Lexer → List Char → Prop where
  | same (mode : Quoting) (rest : List Char) : Tracks mode ⟨mode, false⟩ rest
  | escaped (quote : LongQuote) (rest : List Char) : Tracks (.long quote 0) ⟨.long quote 0, true⟩ rest
  | ahead {quote : LongQuote} {seen : Nat} {rest : List Char} (few : seen < 2)
      (apart : (quote.text.drop (seen + 1)).isPrefixOf rest = false) :
      Tracks (.long quote (seen + 1)) ⟨.long quote seen, false⟩ rest

variable {scan : Quoting} {lexer : Lexer} {quote : LongQuote} {c : Char} {rest : List Char}

theorem Quoting.next_mark {seen : Nat} (few : seen < 2) :
    (Quoting.long quote seen).next quote.mark = .long quote (seen + 1) := by
  have other : seen ≠ 2 := Nat.ne_of_lt few
  simp [Quoting.next, other]

theorem Quoting.next_other (other : c ≠ quote.mark) (seen : Nat) :
    (Quoting.long quote seen).next c = .long quote 0 := by
  simp [Quoting.next, other]

theorem mark_ne_backslash : quote.mark ≠ '\\' := by cases quote <;> decide

theorem Lexer.next_escaped (seen : Nat) (c : Char) :
    Lexer.next ⟨.long quote seen, true⟩ c = ⟨.long quote 0, false⟩ := rfl

theorem Lexer.next_backslash (seen : Nat) : Lexer.next ⟨.long quote seen, false⟩ '\\' = ⟨.long quote 0, true⟩ := rfl

theorem Lexer.next_plain (other : c ≠ '\\') (mode : Quoting) : Lexer.next ⟨mode, false⟩ c = ⟨mode.next c, false⟩ := by
  cases mode with
  | long quote seen => simp [Lexer.next, other]
  | _ => rfl

theorem drop_mark {seen : Nat} (few : seen < 3) (rest : List Char) :
    (quote.text.drop seen).isPrefixOf (quote.mark :: rest) = (quote.text.drop (seen + 1)).isPrefixOf rest := by
  obtain rfl | rfl | rfl : seen = 0 ∨ seen = 1 ∨ seen = 2 := by omega
  all_goals simp [Quoting.text_eq]

theorem Tracks.next (tracks : Tracks scan lexer (c :: rest)) (plain : lexer.masks (c :: rest) = false) :
    Tracks (scan.next c) (lexer.next c) rest := by
  cases tracks with
  | same =>
      by_cases backslash : c = '\\'
      · subst backslash
        cases scan with
        | long quote seen =>
            rw [Lexer.next_backslash, Quoting.next_other mark_ne_backslash.symm]
            exact .escaped quote rest
        | _ => exact .same _ rest
      · rw [Lexer.next_plain backslash]
        exact .same _ rest
  | escaped quote =>
      rw [Lexer.next_escaped]
      by_cases mark : c = quote.mark
      · subst mark
        have apart : (quote.text.drop 1).isPrefixOf rest = false := by
          rw [← drop_mark (by decide)]
          exact plain
        rw [Quoting.next_mark (by decide)]
        exact .ahead (by decide) apart
      · rw [Quoting.next_other mark]
        exact .same _ rest
  | @ahead quote seen _ few apart =>
      by_cases mark : c = quote.mark
      · subst mark
        rw [drop_mark (by omega)] at apart
        obtain rfl | rfl : seen = 0 ∨ seen = 1 := by omega
        · rw [Quoting.next_mark (by decide), Lexer.next_plain mark_ne_backslash, Quoting.next_mark (by decide)]
          exact .ahead (by decide) apart
        · -- The escaped quote and two behind it would look like the end of the literal.
          rw [Quoting.text_eq] at apart
          cases apart
      · rw [Quoting.next_other mark]
        by_cases backslash : c = '\\'
        · subst backslash
          rw [Lexer.next_backslash]
          exact .escaped quote rest
        · rw [Lexer.next_plain backslash, Quoting.next_other mark]
          exact .same _ rest

theorem Tracks.after (front : List Char) : ∀ {scan : Quoting} {lexer : Lexer}, Tracks scan lexer (front ++ rest) →
    lexer.Unmasked front rest → Tracks (scan.after front) (lexer.after front) rest := by
  induction front with
  | nil => exact fun tracks _ => tracks
  | cons c front ih => exact fun tracks plain => ih (tracks.next plain.1) plain.2

theorem Tracks.endLine (tracks : Tracks scan lexer []) (ends : lexer.continues = false) :
    lexer.endLine = ⟨scan.endLine, false⟩ := by
  cases tracks with
  | same =>
      cases scan with
      | short quote escaped =>
          cases escaped with
          | true => cases ends
          | false => rfl
      | _ => rfl
  | escaped => rfl
  | ahead => rfl

end steps

section lines

theorem behind_eq (lines : List (List Char)) : ∀ {mode : Quoting}, Lexer.PlainLines ⟨mode, false⟩ lines →
    lines.foldl (fun lexer line => (lexer.after line).endLine) (Lexer.mk mode false) =
      ⟨lines.foldl (fun mode line => (mode.after line).endLine) mode, false⟩ := by
  induction lines with
  | nil => exact fun _ => rfl
  | cons line rest ih =>
      intro mode plain
      obtain ⟨⟨unmasked, ends⟩, others⟩ := plain
      have tracks : Tracks (mode.after line) (Lexer.after ⟨mode, false⟩ line) [] :=
        Tracks.after line (.same mode _) unmasked
      have next := tracks.endLine ends
      rw [next] at others
      rw [List.foldl_cons, List.foldl_cons, next]
      exact ih others

/-- The long literal that is open behind some lines, as the code of the file is read. -/
def openedBehind (lines : List (List Char)) : Option LongQuote :=
  lines.foldl (fun opened raw => (indentedCode opened raw).2) none

theorem ofOpened_behind (lines : List (List Char)) : ∀ {opened : Option LongQuote}, (∀ line ∈ lines, '\n' ∉ line) →
    Quoting.ofOpened (lines.foldl (fun opened raw => (indentedCode opened raw).2) opened) =
      lines.foldl (fun mode line => (mode.after line).endLine) (Quoting.ofOpened opened) := by
  induction lines with
  | nil => exact fun _ => rfl
  | cons raw rest ih =>
      intro opened oneLine
      obtain ⟨first, others⟩ := List.forall_mem_cons.mp oneLine
      rw [List.foldl_cons, ih others, ofOpened_read opened first, List.foldl_cons]

theorem openedBehind_eq {lines : List (List Char)} (oneLine : ∀ line ∈ lines, '\n' ∉ line) :
    openedBehind lines = (Quoting.behind lines).opened? := by
  have same : Quoting.ofOpened (openedBehind lines) = Quoting.behind lines := ofOpened_behind lines oneLine
  rw [← same, Quoting.opened_ofOpened]

theorem lexed_eq {lines : List (List Char)} (plain : Lexer.PlainLines {} lines) :
    Lexer.behind lines = ⟨Quoting.behind lines, false⟩ := behind_eq lines plain

theorem Lexer.PlainLines.take {lines : List (List Char)} : ∀ {lexer : Lexer} (count : Nat),
    PlainLines lexer lines → PlainLines lexer (lines.take count) := by
  induction lines with
  | nil => exact fun count _ => by simp [PlainLines]
  | cons line rest ih =>
      intro lexer count plain
      cases count with
      | zero => trivial
      | succ count => exact ⟨plain.1, ih count plain.2⟩

theorem Lexer.behind_append (lines more : List (List Char)) : behind (lines ++ more) =
    more.foldl (fun lexer line => (lexer.after line).endLine) (behind lines) := List.foldl_append

theorem Lexer.after_append (lexer : Lexer) (first second : List Char) :
    lexer.after (first ++ second) = (lexer.after first).after second := List.foldl_append

theorem Quoting.behind_append (lines more : List (List Char)) : behind (lines ++ more) =
    more.foldl (fun mode line => (mode.after line).endLine) (behind lines) := List.foldl_append

theorem Quoting.after_append (mode : Quoting) (first second : List Char) :
    mode.after (first ++ second) = (mode.after first).after second := List.foldl_append

theorem masked_parts {lines : List (List Char)} (plain : Lexer.PlainLines {} lines) {front : List Char}
    {quote : LongQuote} (unmasked : (Lexer.behind lines).Unmasked front quote.text)
    (escaped : (Lexer.behind lines).after front = ⟨.long quote 0, true⟩) :
    (Quoting.behind (lines ++ [front ++ quote.text])).opened? = none ∧
      (Lexer.behind (lines ++ [front ++ quote.text])).mode.opened? = some quote := by
  -- Three quotes, the first of them escaped, close a literal for the reader and leave it open for the lexer.
  have tracks : Tracks ((Quoting.behind lines).after front) ((Lexer.behind lines).after front) quote.text := by
    refine Tracks.after front ?_ unmasked
    rw [lexed_eq plain]
    exact .same _ _
  rw [escaped] at tracks
  have scan : (Quoting.behind lines).after front = .long quote 0 := by
    generalize (Quoting.behind lines).after front = scan at tracks
    cases tracks
    rfl
  constructor
  · rw [Quoting.behind_append, List.foldl_cons, List.foldl_nil, Quoting.after_append, scan]
    cases quote <;> rfl
  · rw [Lexer.behind_append, List.foldl_cons, List.foldl_nil, Lexer.after_append, escaped]
    cases quote <;> rfl

theorem continued_parts {lines : List (List Char)} (plain : Lexer.PlainLines {} lines) {line : List Char}
    (unmasked : (Lexer.behind lines).Unmasked line []) (goesOn : ((Lexer.behind lines).after line).continues = true)
    (quote : LongQuote) : (Quoting.behind (lines ++ [line, quote.text])).opened? = some quote ∧
      (Lexer.behind (lines ++ [line, quote.text])).mode.opened? = none := by
  -- Three quotes on a line that a short literal goes on to open a long one for the reader and none for the lexer.
  have tracks : Tracks ((Quoting.behind lines).after line) ((Lexer.behind lines).after line) [] := by
    refine Tracks.after line ?_ unmasked
    rw [lexed_eq plain]
    exact .same _ _
  obtain ⟨short, lexer, scan⟩ : ∃ short, (Lexer.behind lines).after line = ⟨.short short true, false⟩ ∧
      (Quoting.behind lines).after line = .short short true := by
    generalize (Lexer.behind lines).after line = lexer at tracks goesOn
    generalize (Quoting.behind lines).after line = scan at tracks
    cases tracks with
    | same =>
        cases scan with
        | short quote escaped =>
            obtain rfl : escaped = true := goesOn
            exact ⟨quote, rfl, rfl⟩
        | _ => cases goesOn
    | escaped => cases goesOn
    | ahead => cases goesOn
  constructor
  · rw [Quoting.behind_append, List.foldl_cons, List.foldl_cons, List.foldl_nil, scan]
    cases quote <;> rfl
  · rw [Lexer.behind_append, List.foldl_cons, List.foldl_cons, List.foldl_nil, lexer]
    cases quote <;> cases short <;> rfl

/-- The code of an indented file is read with the long literals of a lexer that knows of escapes, as long as no escaped
quote looks like the end of its literal and no short literal goes on behind the end of a line. Where one does the two
part: the literal is closed that is still open, or three quotes that close a short literal open a long one. -/
theorem openedBehind_lexed {lines : List (List Char)} (oneLine : ∀ line ∈ lines, '\n' ∉ line)
    (plain : Lexer.PlainLines {} lines) :
    (∀ count, openedBehind (lines.take count) = (Lexer.behind (lines.take count)).mode.opened?) ∧
    (∀ front quote, '\n' ∉ front → (Lexer.behind lines).Unmasked front quote.text →
      (Lexer.behind lines).after front = ⟨.long quote 0, true⟩ →
        openedBehind (lines ++ [front ++ quote.text]) = none ∧
          (Lexer.behind (lines ++ [front ++ quote.text])).mode.opened? = some quote) ∧
    ∀ line quote, '\n' ∉ line → (Lexer.behind lines).Unmasked line [] →
      ((Lexer.behind lines).after line).continues = true →
        openedBehind (lines ++ [line, quote.text]) = some quote ∧
          (Lexer.behind (lines ++ [line, quote.text])).mode.opened? = none := by
  have marks : ∀ quote : LongQuote, '\n' ∉ quote.text := by
    intro quote
    cases quote <;> decide
  refine ⟨?_, ?_, ?_⟩
  · intro count
    rw [openedBehind_eq fun line member => oneLine line ((List.take_sublist _ _).subset member),
      lexed_eq (plain.take count)]
  · intro front quote line unmasked escaped
    rw [openedBehind_eq]
    · exact masked_parts plain unmasked escaped
    · intro other member
      rcases List.mem_append.mp member with old | new
      · exact oneLine other old
      · rw [List.mem_singleton.mp new]
        exact fun feed => (List.mem_append.mp feed).elim line (marks quote)
  · intro line quote single unmasked goesOn
    rw [openedBehind_eq]
    · exact continued_parts plain unmasked goesOn quote
    · intro other member
      rcases List.mem_append.mp member with old | new
      · exact oneLine other old
      · rcases List.mem_cons.mp new with rfl | last
        · exact single
        · rw [List.mem_singleton.mp last]
          exact marks quote

end lines

/-- In a long literal with an escaped quote, three quotes behind a backslash close it for the reader. -/
theorem openedBehind_lexed_docstring :
    let lines := ["def f():".toList, "    s = \"\"\"a \\\"b\\\" c".toList]
    let front := "    d \\".toList
    (∀ line ∈ lines, '\n' ∉ line) ∧ Lexer.PlainLines {} lines ∧ openedBehind lines = some .double ∧
      openedBehind (lines ++ [front ++ LongQuote.double.text]) = none ∧
      (Lexer.behind (lines ++ [front ++ LongQuote.double.text])).mode.opened? = some .double := by
  intro lines front
  have oneLine : ∀ line ∈ lines, '\n' ∉ line := by decide
  have plain : Lexer.PlainLines {} lines := by decide +kernel
  obtain ⟨opened, parts, _⟩ := openedBehind_lexed oneLine plain
  have escaped : (Lexer.behind lines).after front = ⟨.long .double 0, true⟩ := by decide +kernel
  exact ⟨oneLine, plain, (opened 2).trans (by decide +kernel),
    parts front .double (by decide) (by decide +kernel) escaped⟩

end FlowAtlas.Extraction
