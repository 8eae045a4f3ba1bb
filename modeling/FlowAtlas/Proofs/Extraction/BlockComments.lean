import FlowAtlas.Proofs.Extraction.Legible

/-! Block comments over many lines. The search for their marks ends, and it keeps what a reader of single characters
keeps. -/

namespace FlowAtlas.Extraction

/-- Where a reader is between two characters. Behind a slash a comment may begin, behind a star one may end. -/
inductive CommentReader where
  | outside
  | slash
  | inside
  | star
  deriving DecidableEq, Repr

namespace CommentReader

/-- A mark is spent when it is read: the star that opens a comment does not close it, and the slash that closes one
does not open the next. -/
def next : CommentReader → Char → CommentReader
  | outside, c => if c = '/' then slash else outside
  | slash, c => if c = '*' then inside else if c = '/' then slash else outside
  | inside, c => if c = '*' then star else inside
  | star, c => if c = '/' then outside else if c = '*' then star else inside

def keeps : CommentReader → Char → List Char
  | outside, c => if c = '/' then [] else [c]
  | slash, c => if c = '*' then [] else if c = '/' then ['/'] else ['/', c]
  | inside, _ | star, _ => []

def held : CommentReader → List Char
  | slash => ['/']
  | outside | inside | star => []

def begun : CommentReader → List Char
  | slash => ['/']
  | star => ['*']
  | outside | inside => []

def inComment : CommentReader → Bool
  | outside | slash => false
  | inside | star => true

def endLine : CommentReader → CommentReader
  | outside | slash => outside
  | inside | star => inside

def after (reader : CommentReader) (s : List Char) : CommentReader := s.foldl next reader

def kept : CommentReader → List Char → List Char
  | reader, [] => reader.held
  | reader, c :: rest => reader.keeps c ++ (reader.next c).kept rest

def readLines : CommentReader → List (List Char) → List (List Char × Bool)
  | _, [] => []
  | reader, line :: rest =>
    (reader.kept line, (reader.after line).inComment) :: (reader.after line).endLine.readLines rest

def afterLines (reader : CommentReader) (lines : List (List Char)) : CommentReader :=
  lines.foldl (fun reader line => (reader.after line).endLine) reader

theorem endLine_begun (reader : CommentReader) : reader.endLine.begun = [] := by
  cases reader <;> rfl

theorem endLine_inComment (reader : CommentReader) : reader.endLine.inComment = reader.inComment := by
  cases reader <;> rfl

end CommentReader

def stripLines (inComment : Bool) : List (List Char) → List (List Char × Bool)
  | [] => []
  | line :: rest => stripBlockComments inComment line :: stripLines (stripBlockComments inComment line).2 rest

section reading

open CommentReader

theorem strip_next (reader : CommentReader) (c : Char) (rest : List Char) :
    stripBlockComments reader.inComment (reader.begun ++ c :: rest) =
      (reader.keeps c ++ (stripBlockComments (reader.next c).inComment ((reader.next c).begun ++ rest)).1,
        (stripBlockComments (reader.next c).inComment ((reader.next c).begun ++ rest)).2) := by
  cases reader with
  | outside =>
      by_cases slashed : c = '/'
      · simp [next, keeps, begun, inComment, slashed]
      · have plain : stripBlockComments false (c :: rest) = _ := strip_cons fun same => absurd same slashed
        simp [next, keeps, begun, inComment, slashed, plain]
  | slash =>
      by_cases starred : c = '*'
      · simp [next, keeps, begun, inComment, starred, strip_opened]
      · have first : stripBlockComments false ('/' :: c :: rest) = _ := strip_cons fun _ => by simpa using starred
        by_cases slashed : c = '/'
        · rw [slashed] at first ⊢
          simpa [next, keeps, begun, inComment] using first
        · have plain : stripBlockComments false (c :: rest) = _ := strip_cons fun same => absurd same slashed
          simp [next, keeps, begun, inComment, starred, slashed, first, plain]
  | inside =>
      by_cases starred : c = '*'
      · simp [next, keeps, begun, inComment, starred]
      · have hidden : stripBlockComments true (c :: rest) = _ := strip_hidden fun same => absurd same starred
        simp [next, keeps, begun, inComment, starred, hidden]
  | star =>
      by_cases slashed : c = '/'
      · simp [next, keeps, begun, inComment, slashed, strip_closed]
      · have first : stripBlockComments true ('*' :: c :: rest) = _ := strip_hidden fun _ => by simpa using slashed
        by_cases starred : c = '*'
        · rw [starred] at first ⊢
          simpa [next, keeps, begun, inComment] using first
        · have hidden : stripBlockComments true (c :: rest) = _ := strip_hidden fun same => absurd same starred
          simp [next, keeps, begun, inComment, starred, slashed, first, hidden]

theorem strip_begun (s : List Char) : ∀ reader : CommentReader,
    stripBlockComments reader.inComment (reader.begun ++ s) = (reader.kept s, (reader.after s).inComment) := by
  induction s with
  | nil =>
      intro reader
      cases reader with
      | outside => exact strip_kept rfl
      | slash => exact strip_kept rfl
      | inside => exact strip_inside rfl
      | star => exact strip_inside rfl
  | cons c rest ih =>
      intro reader
      rw [strip_next, ih]
      rfl

theorem strip_line {reader : CommentReader} (fresh : reader.begun = []) (line : List Char) :
    stripBlockComments reader.inComment line = (reader.kept line, (reader.after line).inComment) := by
  have whole := strip_begun line reader
  rwa [fresh, List.nil_append] at whole

theorem stripLines_begun (lines : List (List Char)) : ∀ {reader : CommentReader}, reader.begun = [] →
    stripLines reader.inComment lines = reader.readLines lines := by
  induction lines with
  | nil => exact fun _ => rfl
  | cons line rest ih =>
      intro reader fresh
      rw [stripLines, readLines, strip_line fresh, ← ih (endLine_begun _), endLine_inComment]

theorem foldl_strip (lines : List (List Char)) : ∀ {reader : CommentReader}, reader.begun = [] →
    lines.foldl (fun inComment line => (stripBlockComments inComment line).2) reader.inComment =
      (reader.afterLines lines).inComment := by
  induction lines with
  | nil => exact fun _ => rfl
  | cons line rest ih =>
      intro reader fresh
      rw [afterLines, List.foldl_cons, List.foldl_cons, strip_line fresh, ← endLine_inComment]
      exact ih (endLine_begun _)

end reading

structure CommentSearch where
  kept : List Char := []
  inComment : Bool
  ahead : List Char
  deriving DecidableEq, Repr

namespace CommentSearch

def round (search : CommentSearch) : CommentSearch ⊕ (List Char × Bool) :=
  if search.ahead.isEmpty then .inr (search.kept, search.inComment)
  else if search.inComment then
    match Text.cutAt ['*', '/'] search.ahead with
    | none => .inr (search.kept, true)
    | some (_, rest) => .inl { kept := search.kept, inComment := false, ahead := rest }
  else
    match Text.cutAt ['/', '*'] search.ahead with
    | none => .inr (search.kept ++ search.ahead, false)
    | some (front, rest) => .inl { kept := search.kept ++ front, inComment := true, ahead := rest }

def within? : Nat → CommentSearch → Option (List Char × Bool)
  | 0, _ => none
  | rounds + 1, search =>
    match search.round with
    | .inl later => within? rounds later
    | .inr answer => some answer

def answer (search : CommentSearch) : List Char × Bool :=
  let tail := stripBlockComments search.inComment search.ahead
  (search.kept ++ tail.1, tail.2)

theorem round_cases (search : CommentSearch) :
    search.round = .inr search.answer ∨
      ∃ later, search.round = .inl later ∧ later.answer = search.answer ∧
        later.ahead.length + 2 ≤ search.ahead.length := by
  have shorter : ∀ {a b : Char} {s front rest : List Char}, Text.cutAt [a, b] s = some (front, rest) →
      rest.length + 2 ≤ s.length := by
    intro a b s front rest cut
    rw [(cutAt_split s cut).1, List.length_append, List.length_cons, List.length_cons]
    omega
  rcases search with ⟨kept, inComment, ahead⟩
  cases ahead with
  | nil =>
      left
      cases inComment with
      | false => simp [round, answer, strip_kept (s := []) rfl]
      | true => simp [round, answer, strip_inside (s := []) rfl]
  | cons c rest =>
      cases inComment with
      | true =>
          cases cut : Text.cutAt ['*', '/'] (c :: rest) with
          | none =>
              left
              simp [round, answer, cut, strip_inside cut]
          | some parts =>
              right
              refine ⟨⟨kept, false, parts.2⟩, ?_, ?_, shorter cut⟩
              · simp [round, cut]
              · simp [answer, strip_closes cut]
      | false =>
          cases cut : Text.cutAt ['/', '*'] (c :: rest) with
          | none =>
              left
              simp [round, answer, cut, strip_kept cut]
          | some parts =>
              right
              refine ⟨⟨kept ++ parts.1, true, parts.2⟩, ?_, ?_, shorter cut⟩
              · simp [round, cut]
              · simp [answer, strip_opens cut]

theorem within_answer (rounds : Nat) : ∀ search : CommentSearch, search.ahead.length < 2 * rounds →
    search.within? rounds = some search.answer := by
  -- Two characters are read in every round but the last.
  induction rounds with
  | zero => exact fun _ few => absurd few (Nat.not_lt_zero _)
  | succ rounds ih =>
      intro search few
      rw [within?]
      rcases search.round_cases with answers | ⟨later, goesOn, same, shorter⟩
      · rw [answers]
      · rw [goesOn, ← same]
        exact ih later (by omega)

end CommentSearch

/-- Taking the comments out of any lines gives for each line what a reader of single characters gives. The scan of a
file holds the reader's flag behind its lines, with their literals made empty. The search in a line ends: there is a
round for every two characters of it and one more. -/
theorem stripLines_readLines (lines : List (List Char)) :
    stripLines false lines = CommentReader.outside.readLines lines ∧
      (∀ braces path, (scanBraced braces { findings := { file := path } } 1 lines).inComment =
        (CommentReader.outside.afterLines (lines.map withoutLiterals)).inComment) ∧
      ∀ line inComment, CommentSearch.within? (line.length / 2 + 1) { inComment, ahead := line } =
        some (stripBlockComments inComment line) := by
  refine ⟨?_, ?_, ?_⟩
  · have fresh : CommentReader.outside.begun = [] := rfl
    exact stripLines_begun lines fresh
  · intro braces path
    rw [scanBraced_inComment, ← foldl_strip _ rfl, List.foldl_map]
    rfl
  · intro line inComment
    rw [CommentSearch.within_answer _ _ (by dsimp only; omega)]
    rfl

example : stripLines false ["a /*/ b */ c **/ d /".toList, "* e /* f **".toList, "/ g **/*/ h".toList] =
    [("a  c **/ d /".toList, false), ("* e ".toList, true), ("*/ h".toList, false)] := by
  decide +kernel

end FlowAtlas.Extraction
