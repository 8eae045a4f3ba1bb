import FlowAtlas.Proofs.Extraction.LineCode

namespace FlowAtlas.Extraction

/-- What a lexer is in between two characters. Behind a slash a comment may begin, behind a star one may end. A slash
that begins no comment is an operator: there are no literals between slashes. -/
inductive Mode where
  | code
  | slash
  | literal (quote : Char)
  | escaped (quote : Char)
  | lineComment
  | blockComment
  | star
  deriving DecidableEq, Repr

namespace Mode

def next : Mode → Char → Mode
  | code, c => if c == '/' then slash else if isQuote c then literal c else code
  | slash, c =>
    if c == '/' then lineComment else if c == '*' then blockComment else if isQuote c then literal c else code
  | literal quote, c => if c == quote then code else if c == '\\' then escaped quote else literal quote
  | escaped quote, _ => literal quote
  | lineComment, _ => lineComment
  | blockComment, c => if c == '*' then star else blockComment
  | star, c => if c == '/' then code else if c == '*' then star else blockComment

def after (mode : Mode) (s : List Char) : Mode := s.foldl next mode

def endLine : Mode → Mode
  | code | slash | lineComment => code
  | literal quote => if quote == backQuote then literal quote else code
  | escaped quote => literal quote
  | blockComment | star => blockComment

def ofComment (inComment : Bool) : Mode := if inComment then blockComment else code

@[simp] theorem after_nil (mode : Mode) : mode.after [] = mode := rfl

@[simp] theorem after_cons (mode : Mode) (c : Char) (rest : List Char) :
    mode.after (c :: rest) = (mode.next c).after rest := rfl

theorem after_append (mode : Mode) (first second : List Char) :
    mode.after (first ++ second) = (mode.after first).after second := List.foldl_append

theorem lineComment_after (s : List Char) : lineComment.after s = lineComment := by
  induction s with
  | nil => rfl
  | cons c rest ih => exact ih

theorem code_next_quote {quote : Char} (quoted : isQuote quote = true) : code.next quote = literal quote := by
  have slash : quote ≠ '/' := by
    rintro rfl
    exact absurd quoted (by decide)
  simp [next, slash, quoted]

theorem star_next {c : Char} (other : c ≠ '/') : star.next c = blockComment.next c := by
  simp [next, other]

theorem slash_next {c : Char} (line : c ≠ '/') (block : c ≠ '*') : slash.next c = code.next c := by
  simp [next, line, block]

theorem blockComment_closes (s : List Char) : ∀ {text rest : List Char},
    Text.cutAt ['*', '/'] s = some (text, rest) → blockComment.after s = code.after rest := by
  induction s with
  | nil => intro text rest cut; simp [Text.cutAt] at cut
  | cons c tail ih =>
      intro text rest cut
      rcases cutAt_cases cut with ⟨rfl, rfl, rfl⟩ | ⟨front, rfl, apart, cut⟩
      · rfl
      · have goesOn := ih cut
        by_cases starred : c = '*'
        · cases tail with
          | nil => simp [Text.cutAt] at cut
          | cons d more =>
              have other : d ≠ '/' := by simpa using apart starred
              subst starred
              calc blockComment.after ('*' :: d :: more)
                _ = (star.next d).after more := rfl
                _ = (blockComment.next d).after more := by rw [star_next other]
                _ = code.after rest := goesOn
        · rw [after_cons]
          simpa [next, starred] using goesOn

theorem blockComment_inside (s : List Char) (inside : Text.cutAt ['*', '/'] s = none) :
    blockComment.after s = blockComment ∨ blockComment.after s = star := by
  induction s with
  | nil => exact Or.inl rfl
  | cons c tail ih =>
      obtain ⟨apart, none⟩ := apart_of_cutAt_none inside
      by_cases starred : c = '*'
      · cases tail with
        | nil => exact Or.inr (by simp [next, starred])
        | cons d more =>
            have other : d ≠ '/' := by simpa using apart starred
            have goesOn := ih none
            rw [after_cons] at goesOn
            rw [after_cons, after_cons, starred]
            rwa [← star_next other] at goesOn
      · rw [after_cons]
        simpa [next, starred] using ih none

theorem blockComment_endLine {s : List Char} (inside : Text.cutAt ['*', '/'] s = none) :
    (blockComment.after s).endLine = blockComment := by
  rcases blockComment_inside s inside with still | still
  · exact congrArg endLine still
  · exact congrArg endLine still

def inLiteral (quote : Char) (afterBackslash : Bool) : Mode := if afterBackslash then escaped quote else literal quote

theorem literal_next {quote c : Char} (other : c ≠ quote) :
    (literal quote).next c = inLiteral quote (c == '\\') := by
  rw [next, if_neg (by simpa using other)]
  rfl

theorem literal_closes {quote : Char} (s : List Char) : ∀ {afterBackslash : Bool} {rest : List Char},
    closing? quote afterBackslash s = some rest → (inLiteral quote afterBackslash).after s = code.after rest := by
  induction s with
  | nil => intro _ _ closed; simp [closing?] at closed
  | cons c tail ih =>
      intro afterBackslash rest closed
      rw [closing?] at closed
      cases afterBackslash with
      | true =>
          rw [if_pos rfl] at closed
          split at closed
          · cases closed
          · exact ih closed
      | false =>
          rw [if_neg (by decide)] at closed
          by_cases closes : c = quote
          · rw [if_pos (by simpa using closes), Option.some.injEq] at closed
            simp [inLiteral, next, closes, closed]
          · rw [if_neg (by simpa using closes)] at closed
            rw [inLiteral, if_neg (by decide), after_cons, literal_next closes]
            exact ih closed

theorem literal_inside {quote : Char} (s : List Char) : ∀ (afterBackslash : Bool), '\n' ∉ s →
    closing? quote afterBackslash s = none →
      ∃ last, (inLiteral quote afterBackslash).after s = inLiteral quote last := by
  induction s with
  | nil => exact fun afterBackslash _ _ => ⟨afterBackslash, rfl⟩
  | cons c tail ih =>
      intro afterBackslash oneLine unclosed
      obtain ⟨first, others⟩ := not_or.mp (fun found => oneLine (List.mem_cons.mpr found))
      rw [closing?] at unclosed
      cases afterBackslash with
      | true =>
          rw [if_pos rfl, if_neg (by simpa using Ne.symm first)] at unclosed
          exact ih false others unclosed
      | false =>
          rw [if_neg (by decide)] at unclosed
          by_cases closes : c = quote
          · simp [closes] at unclosed
          · rw [if_neg (by simpa using closes)] at unclosed
            have goesOn := ih _ others unclosed
            rwa [inLiteral, if_neg (by decide), after_cons, literal_next closes]

theorem code_cases (c : Char) (tail : List Char) :
    isQuote c = true ∨
      (c = '/' ∧ (tail = [] ∨ ∃ more, tail = '/' :: more)) ∨
      (∃ more, c = '/' ∧ tail = '*' :: more) ∨
      (∃ d more, c = '/' ∧ tail = d :: more ∧ d ≠ '/' ∧ d ≠ '*') ∨
      (isQuote c = false ∧ c ≠ '/') := by
  by_cases quoted : isQuote c = true
  · exact Or.inl quoted
  · right
    by_cases slashed : c = '/'
    · rcases tail with _ | ⟨d, more⟩
      · exact Or.inl ⟨slashed, Or.inl rfl⟩
      · by_cases line : d = '/'
        · exact Or.inl ⟨slashed, Or.inr ⟨more, by rw [line]⟩⟩
        · by_cases block : d = '*'
          · exact Or.inr (Or.inl ⟨more, slashed, by rw [block]⟩)
          · exact Or.inr (Or.inr (Or.inl ⟨d, more, slashed, rfl, line, block⟩))
    · exact Or.inr (Or.inr (Or.inr ⟨by simpa using quoted, slashed⟩))

theorem after_quote {quote : Char} {tail further : List Char} (quoted : isQuote quote = true)
    (closed : closing? quote false tail = some further) : code.after (quote :: tail) = code.after further := by
  rw [after_cons, code_next_quote quoted]
  exact literal_closes tail closed

theorem after_slash {d : Char} (line : d ≠ '/') (block : d ≠ '*') (more : List Char) :
    code.after ('/' :: d :: more) = code.after (d :: more) :=
  congrArg (fun mode => mode.after more) (slash_next line block)

theorem after_plain {c : Char} (plain : isQuote c = false) (other : c ≠ '/') (tail : List Char) :
    code.after (c :: tail) = code.after tail := by
  simp [next, other, plain]

def Clear : Mode → Prop
  | literal _ | escaped _ => False
  | _ => True

instance : ∀ mode, Decidable (Clear mode)
  | literal _ | escaped _ => isFalse id
  | code | slash | lineComment | blockComment | star => isTrue trivial

theorem not_clear_inLiteral (quote : Char) (afterBackslash : Bool) : ¬ Clear (inLiteral quote afterBackslash) := by
  cases afterBackslash <;> exact id

theorem clear_quote {quote : Char} {tail : List Char} (quoted : isQuote quote = true) (oneLine : '\n' ∉ tail)
    (clear : Clear (code.after (quote :: tail))) : ∃ further, closing? quote false tail = some further := by
  cases closed : closing? quote false tail with
  | none =>
      obtain ⟨last, still⟩ := literal_inside tail false oneLine closed
      rw [after_cons, code_next_quote quoted, show literal quote = inLiteral quote false from rfl, still] at clear
      exact absurd clear (not_clear_inLiteral quote last)
  | some further => exact ⟨further, rfl⟩

end Mode

section closed

variable {code : List Char}

/-- A text that is read from code, or from a block comment, to code. -/
inductive Closed : Bool → List Char → Prop where
  | nil : Closed false []
  | closes {text code : List Char} (inside : Text.cutAt ['*', '/'] text = none) (closed : Closed false code) :
      Closed true (text ++ '*' :: '/' :: code)
  | opens {code : List Char} (closed : Closed true code) : Closed false ('/' :: '*' :: code)
  | literal {quote : Char} {tail code : List Char} (quoted : isQuote quote = true)
      (ends : closing? quote false tail = some code) (closed : Closed false code) : Closed false (quote :: tail)
  | slash {c : Char} {tail : List Char} (line : c ≠ '/') (block : c ≠ '*') (closed : Closed false (c :: tail)) :
      Closed false ('/' :: c :: tail)
  | plain {c : Char} {code : List Char} (plain : isQuote c = false) (other : c ≠ '/') (closed : Closed false code) :
      Closed false (c :: code)

theorem Closed.after {inComment : Bool} (closed : Closed inComment code) :
    (Mode.ofComment inComment).after code = .code := by
  induction closed with
  | nil => rfl
  | closes inside _ ih => exact (Mode.blockComment_closes _ (cutAt_append (by decide) _ _ inside)).trans ih
  | opens _ ih => exact ih
  | literal quoted ends _ ih => exact (Mode.after_quote quoted ends).trans ih
  | slash line block _ ih => exact (Mode.after_slash line block _).trans ih
  | plain plain other _ ih => exact (Mode.after_plain plain other _).trans ih

inductive Ending : List Char → Prop where
  | nil : Ending []
  | slash : Ending ['/']
  | line (text : List Char) : Ending ('/' :: '/' :: text)
  | block {text : List Char} (inside : Text.cutAt ['*', '/'] text = none) : Ending ('/' :: '*' :: text)

/-- A line that goes on with a comment to its end, or a closed text with an ending behind it. -/
inductive Ends : Bool → List Char → Prop where
  | inside {line : List Char} (inside : Text.cutAt ['*', '/'] line = none) : Ends true line
  | behind {inComment : Bool} {code last : List Char} (closed : Closed inComment code) (ending : Ending last) :
      Ends inComment (code ++ last)

section ends

variable {c : Char} {tail : List Char}

theorem Ends.closes {text : List Char} (inside : Text.cutAt ['*', '/'] text = none) (ends : Ends false tail) :
    Ends true (text ++ '*' :: '/' :: tail) := by
  cases ends with
  | behind closed ending =>
      have whole := Ends.behind (Closed.closes inside closed) ending
      rwa [List.append_assoc] at whole

theorem Ends.opens (ends : Ends true tail) : Ends false ('/' :: '*' :: tail) := by
  cases ends with
  | inside inside => exact Ends.behind Closed.nil (Ending.block inside)
  | behind closed ending => exact Ends.behind (Closed.opens closed) ending

theorem Ends.literal {further : List Char} (quoted : isQuote c = true) (closes : closing? c false tail = some further)
    (ends : Ends false further) : Ends false (c :: tail) := by
  obtain ⟨body, rfl, whole⟩ := closing_split tail closes
  cases ends with
  | @behind _ code last closed ending =>
      have within : closing? c false (body ++ [c] ++ code) = some code := closing_append _ code whole
      have line := Ends.behind (Closed.literal quoted within closed) ending
      simpa using line

theorem Ends.slash (line : c ≠ '/') (block : c ≠ '*') (ends : Ends false (c :: tail)) :
    Ends false ('/' :: c :: tail) := by
  generalize whole : c :: tail = text at ends ⊢
  cases ends with
  | @behind _ code last closed ending =>
      cases code with
      | nil =>
          -- An ending that is not empty begins with a slash.
          cases ending <;> cases whole <;> exact absurd rfl line
      | cons d code =>
          obtain ⟨rfl, rfl⟩ := List.cons.inj whole
          exact Ends.behind (Closed.slash line block closed) ending

theorem Ends.plain (plain : isQuote c = false) (other : c ≠ '/') (ends : Ends false tail) : Ends false (c :: tail) := by
  cases ends with
  | behind closed ending => exact Ends.behind (Closed.plain plain other closed) ending

end ends

/-- Every line ends so that leaves no literal open. -/
theorem ends_of_clear (line : List Char) (oneLine : '\n' ∉ line) : ∀ (inComment : Bool),
    ((Mode.ofComment inComment).after line).Clear → Ends inComment line := by
  induction length : line.length using Nat.strongRecOn generalizing line with
  | ind n ih =>
    subst length
    have shorter : ∀ front {rest}, line = front ++ rest → front ≠ [] → ∀ inComment,
        ((Mode.ofComment inComment).after rest).Clear → Ends inComment rest := by
      rintro front rest rfl given
      have positive : 0 < front.length := List.length_pos_iff.mpr given
      refine ih rest.length ?_ rest (fun member => oneLine (List.mem_append_right _ member)) rfl
      rw [List.length_append]
      omega
    intro inComment clear
    cases inComment with
    | true =>
        cases cut : Text.cutAt ['*', '/'] line with
        | none => exact Ends.inside cut
        | some parts =>
            rw [Mode.ofComment, if_pos rfl, Mode.blockComment_closes line cut] at clear
            obtain ⟨split, inside⟩ := cutAt_split line cut
            have tail := shorter (parts.1 ++ ['*', '/']) (by simp [split]) (by simp) false clear
            rw [split]
            exact tail.closes inside
    | false =>
        rcases line with _ | ⟨c, tail⟩
        · exact Ends.behind Closed.nil Ending.nil
        · have feed : '\n' ∉ tail := fun member => oneLine (List.mem_cons_of_mem _ member)
          rw [Mode.ofComment, if_neg (by decide)] at clear
          rcases Mode.code_cases c tail with quoted | ⟨rfl, rfl | ⟨more, rfl⟩⟩ |
            ⟨more, rfl, rfl⟩ | ⟨d, more, rfl, rfl, line, block⟩ | ⟨plain, other⟩
          · obtain ⟨further, closes⟩ := Mode.clear_quote quoted feed clear
            rw [Mode.after_quote quoted closes] at clear
            obtain ⟨body, split, _⟩ := closing_split tail closes
            have rest := shorter (c :: (body ++ [c])) (by simp [split]) (by simp) false clear
            exact rest.literal quoted closes
          · exact Ends.behind Closed.nil Ending.slash
          · exact Ends.behind Closed.nil (Ending.line more)
          · have rest := shorter ['/', '*'] rfl (by simp) true clear
            exact rest.opens
          · rw [Mode.after_slash line block] at clear
            have rest := shorter ['/'] rfl (by simp) false clear
            exact rest.slash line block
          · rw [Mode.after_plain plain other] at clear
            have rest := shorter [c] rfl (by simp) false clear
            exact rest.plain plain other

theorem closed_of_after {inComment : Bool} (oneLine : '\n' ∉ code)
    (outside : (Mode.ofComment inComment).after code = .code) : Closed inComment code := by
  have clear : ((Mode.ofComment inComment).after code).Clear := by
    rw [outside]
    trivial
  cases ends_of_clear code oneLine inComment clear with
  | inside inside =>
      have still : ((Mode.ofComment true).after code).endLine = .blockComment := Mode.blockComment_endLine inside
      rw [outside] at still
      cases still
  | behind closed ending =>
      rw [Mode.after_append, closed.after] at outside
      cases ending with
      | nil => rwa [List.append_nil]
      | slash => cases outside
      | line text =>
          have still : Mode.lineComment.after text = .code := outside
          rw [Mode.lineComment_after] at still
          cases still
      | block inside =>
          have still := Mode.blockComment_endLine inside
          rw [show Mode.blockComment.after _ = .code from outside] at still
          cases still

end closed

end FlowAtlas.Extraction
