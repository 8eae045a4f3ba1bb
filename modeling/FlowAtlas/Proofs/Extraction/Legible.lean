import FlowAtlas.Proofs.Extraction.Lexing
import FlowAtlas.Proofs.Extraction.Runs

/-! Comments that the scan of a language with braces removes as a lexer would. Where they do no harm, the scan knows
at each line whether it begins in a comment, and nothing that a comment says is read as code. -/

namespace FlowAtlas.Extraction

inductive CommentKind where
  | line
  | block
  deriving DecidableEq, Repr

def CommentKind.opener : CommentKind → List Char
  | line => ['/', '/']
  | block => ['/', '*']

inductive Opens (start : Mode) : CommentKind → List Char → Prop where
  | here (kind : CommentKind) (code : List Char) (outside : start.after code = .code) :
      Opens start kind (code ++ kind.opener)
  | above (inside : start = .blockComment) : Opens start .block []

def Fills : CommentKind → List Char → List Char → Prop
  | .line, _, behind => behind = []
  | .block, text, behind =>
    Text.cutAt ['*', '/'] text = none ∧ (behind = [] ∨ ['*', '/'] <+: behind)

/-- A comment that is removed as a lexer would. No block comment seems to begin inside a line comment and to go on
behind it, and no literal that begins inside a block comment is closed behind it. -/
def Harmless : CommentKind → List Char → List Char → Prop
  | .line, text, _ => text.head? ≠ some '*' ∧ (stripBlockComments false (withoutLiterals text)).2 = false
  | .block, text, behind => withoutLiterals (text ++ behind) = withoutLiterals text ++ withoutLiterals behind

/-- The comments of a line that begin up to a place are harmless. -/
def Legible (start : Mode) (line : List Char) (place : Nat) : Prop :=
  ∀ kind before text behind, line = before ++ text ++ behind → before.length ≤ place →
    Opens start kind before → Fills kind text behind → Harmless kind text behind

instance (start : Mode) (kind : CommentKind) (before : List Char) : Decidable (Opens start kind before) :=
  decidable_of_iff
    ((start.after (before.take (before.length - 2)) = .code ∧ before.drop (before.length - 2) = kind.opener) ∨
      start = .blockComment ∧ kind = .block ∧ before = []) (by
    constructor
    · rintro (⟨outside, opener⟩ | ⟨inside, rfl, rfl⟩)
      · rw [← List.take_append_drop (before.length - 2) before, opener]
        exact Opens.here kind _ outside
      · exact Opens.above inside
    · intro opened
      cases opened with
      | here kind code outside =>
          have length : (code ++ kind.opener).length - 2 = code.length := by cases kind <;> simp [CommentKind.opener]
          rw [length, List.take_left, List.drop_left]
          exact Or.inl ⟨outside, rfl⟩
      | above inside => exact Or.inr ⟨inside, rfl, rfl⟩)

instance : ∀ kind text behind, Decidable (Fills kind text behind)
  | .line, _, behind => inferInstanceAs (Decidable (behind = []))
  | .block, text, behind =>
    inferInstanceAs (Decidable (Text.cutAt ['*', '/'] text = none ∧ (behind = [] ∨ ['*', '/'] <+: behind)))

instance : ∀ kind text behind, Decidable (Harmless kind text behind)
  | .line, text, _ =>
    inferInstanceAs (Decidable (text.head? ≠ some '*' ∧ (stripBlockComments false (withoutLiterals text)).2 = false))
  | .block, text, behind =>
    inferInstanceAs (Decidable (withoutLiterals (text ++ behind) = withoutLiterals text ++ withoutLiterals behind))

theorem legible_iff (start : Mode) (line : List Char) (place : Nat) :
    Legible start line place ↔
      ∀ kind ∈ [CommentKind.line, .block], ∀ i ∈ List.range (place + 1), Opens start kind (line.take i) →
        ∀ j ∈ List.range (line.length + 1), Fills kind ((line.drop i).take j) ((line.drop i).drop j) →
          Harmless kind ((line.drop i).take j) ((line.drop i).drop j) := by
  constructor
  · intro legible kind _ i within opened j _ fills
    have bound : (line.take i).length ≤ place := by
      have least := List.length_take_le i line
      have earlier := List.mem_range.mp within
      omega
    have split : line = line.take i ++ (line.drop i).take j ++ (line.drop i).drop j := by
      rw [List.append_assoc, List.take_append_drop, List.take_append_drop]
    exact legible kind _ _ _ split bound opened fills
  · intro all kind before text behind split bound opened fills
    have among : kind ∈ [CommentKind.line, .block] := by cases kind <;> simp
    have start : line.take before.length = before := by rw [split, List.append_assoc, List.take_left]
    have rest : line.drop before.length = text ++ behind := by rw [split, List.append_assoc, List.drop_left]
    have length : text.length < line.length + 1 := by
      rw [split, List.length_append, List.length_append]
      omega
    have harmless := all kind among before.length (List.mem_range.mpr (by omega)) (by rwa [start]) text.length
      (List.mem_range.mpr length)
    rw [rest, List.take_left, List.drop_left] at harmless
    exact harmless fills

instance (start : Mode) (line : List Char) (place : Nat) : Decidable (Legible start line place) :=
  decidable_of_iff _ (legible_iff start line place).symm

section legible

variable {start later : Mode} {front code rest : List Char}

theorem Opens.behind {kind : CommentKind} {before : List Char} (opened : Opens later kind before)
    (reached : start.after front = later) (inside : later = .blockComment → Opens start .block front) :
    Opens start kind (front ++ before) := by
  cases opened with
  | here kind between outside =>
      have further : start.after (front ++ between) = .code := by rw [Mode.after_append, reached, outside]
      rw [← List.append_assoc]
      exact Opens.here kind (front ++ between) further
  | above same =>
      rw [List.append_nil]
      exact inside same

theorem Legible.upTo {line : List Char} {place earlier : Nat} (legible : Legible start line place)
    (bound : earlier ≤ place) : Legible start line earlier :=
  fun kind before text behind split within => legible kind before text behind split (Nat.le_trans within bound)

theorem Legible.behind (legible : Legible start (front ++ code ++ rest) (front ++ code).length)
    (opens : ∀ kind before, before <+: code ++ rest → Opens later kind before → Opens start kind (front ++ before)) :
    Legible later (code ++ rest) code.length := by
  intro kind before text behind split bound opened fills
  have within : (front ++ before).length ≤ (front ++ code).length := by
    rw [List.length_append, List.length_append]
    omega
  have starts : before <+: code ++ rest := ⟨text ++ behind, by rw [split, List.append_assoc]⟩
  have whole : front ++ code ++ rest = front ++ before ++ text ++ behind := by
    rw [List.append_assoc, split]
    simp only [List.append_assoc]
  exact legible kind (front ++ before) text behind whole within (opens kind before starts opened) fills

theorem Legible.behind_code (legible : Legible start (front ++ code ++ rest) (front ++ code).length)
    (outside : start.after front = .code) : Legible .code (code ++ rest) code.length :=
  legible.behind fun _ _ _ opened => opened.behind outside nofun

end legible

section prefixes

variable {kept code : List Char}

def ReadsAs (inComment : Bool) (code kept : List Char) : Prop :=
  ∀ rest, Legible (.ofComment inComment) (code ++ rest) code.length →
    bracedCode inComment (code ++ rest) = (kept ++ (bracedCode false rest).1, (bracedCode false rest).2)

theorem readsAs_nil : ReadsAs false [] [] := fun _ _ => rfl

theorem readsAs_closes {text : List Char} (inside : Text.cutAt ['*', '/'] text = none)
    (reads : ReadsAs false code kept) : ReadsAs true (text ++ '*' :: '/' :: code) kept := by
  intro rest legible
  have harmless : Harmless .block text ('*' :: '/' :: (code ++ rest)) :=
    legible .block [] text _ (by simp) (Nat.zero_le _) (Opens.above rfl) ⟨inside, Or.inr ⟨_, rfl⟩⟩
  have outside : Mode.blockComment.after (text ++ ['*', '/']) = .code :=
    Mode.blockComment_closes _ (cutAt_append (by decide) text [] inside)
  have split : text ++ '*' :: '/' :: code = text ++ ['*', '/'] ++ code := by simp
  rw [split] at legible
  have behind : Legible .code (code ++ rest) code.length := legible.behind_code outside
  rw [List.append_assoc, List.cons_append, List.cons_append, bracedCode_closes inside harmless]
  exact reads rest behind

theorem readsAs_opens (reads : ReadsAs true code kept) : ReadsAs false ('/' :: '*' :: code) kept := by
  intro rest legible
  have split : Legible .code (['/', '*'] ++ code ++ rest) (['/', '*'] ++ code).length := legible
  have behind : Legible .blockComment (code ++ rest) code.length :=
    split.behind fun _ _ _ opened => opened.behind rfl fun _ => Opens.here .block [] rfl
  rw [List.cons_append, List.cons_append, bracedCode_opens]
  exact reads rest behind

theorem readsAs_literal {quote : Char} {tail : List Char} (quoted : isQuote quote = true)
    (closed : closing? quote false tail = some code) (reads : ReadsAs false code kept) :
    ReadsAs false (quote :: tail) (doubleQuote :: doubleQuote :: kept) := by
  intro rest legible
  have ends : literalEnd? (quote :: (tail ++ rest)) = some (code ++ rest) := by
    rw [literalEnd?, if_pos quoted]
    exact closing_append tail rest closed
  obtain ⟨body, rfl, whole⟩ := closing_split tail closed
  have outside : Mode.code.after (quote :: (body ++ [quote])) = .code := by
    rw [Mode.after_cons, Mode.code_next_quote quoted]
    exact Mode.literal_closes (body ++ [quote]) whole
  have split : quote :: (body ++ quote :: code) = quote :: (body ++ [quote]) ++ code := by simp
  rw [split] at legible
  have behind : Legible .code (code ++ rest) code.length := legible.behind_code outside
  rw [List.cons_append, bracedCode_literal ends, reads rest behind]
  rfl

theorem readsAs_slash {c : Char} {tail : List Char} (line : c ≠ '/') (block : c ≠ '*')
    (reads : ReadsAs false (c :: tail) kept) : ReadsAs false ('/' :: c :: tail) ('/' :: kept) := by
  intro rest legible
  have split : Legible .code (['/'] ++ c :: tail ++ rest) (['/'] ++ c :: tail).length := legible
  have behind : Legible .code (c :: tail ++ rest) (c :: tail).length := by
    refine split.behind ?_
    intro kind before starts opened
    cases opened with
    | here kind between outside =>
        rw [← List.append_assoc]
        refine Opens.here kind (['/'] ++ between) ?_
        cases between with
        | nil =>
            obtain ⟨behind, split⟩ := starts
            have same : '/' = c := by cases kind <;> exact (List.cons.inj split).1
            exact absurd same.symm line
        | cons d more =>
            obtain ⟨behind, split⟩ := starts
            have same : d = c := (List.cons.inj split).1
            subst same
            exact (congrArg (fun mode => Mode.after mode more) (Mode.slash_next line block)).trans outside
    | above same => cases same
  rw [List.cons_append, bracedCode_cons (by decide), reads rest behind]
  · rfl
  · intro _
    simp [line, block]

theorem readsAs_cons {c : Char} (plain : isQuote c = false) (other : c ≠ '/') (reads : ReadsAs false code kept) :
    ReadsAs false (c :: code) (c :: kept) := by
  intro rest legible
  have outside : Mode.code.after [c] = .code := by simp [Mode.next, other, plain]
  have split : Legible .code ([c] ++ code ++ rest) ([c] ++ code).length := legible
  have behind : Legible .code (code ++ rest) code.length := split.behind_code outside
  rw [List.cons_append, bracedCode_cons plain fun same => absurd same other, reads rest behind]
  rfl

theorem Closed.readsAs {inComment : Bool} (closed : Closed inComment code) : ∃ kept, ReadsAs inComment code kept := by
  induction closed with
  | nil => exact ⟨[], readsAs_nil⟩
  | closes inside _ ih => exact ih.imp fun _ reads => readsAs_closes inside reads
  | opens _ ih => exact ih.imp fun _ reads => readsAs_opens reads
  | literal quoted ends _ ih =>
      obtain ⟨kept, reads⟩ := ih
      exact ⟨_, readsAs_literal quoted ends reads⟩
  | slash line block _ ih =>
      obtain ⟨kept, reads⟩ := ih
      exact ⟨_, readsAs_slash line block reads⟩
  | plain plain other _ ih =>
      obtain ⟨kept, reads⟩ := ih
      exact ⟨_, readsAs_cons plain other reads⟩

end prefixes

section comments

variable {text other behind before : List Char}

theorem bracedCode_text (fills : Fills .block text behind) (harmless : Harmless .block text behind) :
    bracedCode true (text ++ behind) = bracedCode true behind := by
  obtain ⟨inside, rfl | ⟨rest, rfl⟩⟩ := fills
  · rw [List.append_nil, bracedCode_inside inside, bracedCode_inside rfl]
  · have empty : bracedCode true ([] ++ '*' :: '/' :: rest) = bracedCode false rest := bracedCode_closes rfl rfl
    exact (bracedCode_closes inside harmless).trans empty.symm

theorem bracedCode_opener (kind : CommentKind) (fills : Fills kind text behind) (refills : Fills kind other behind)
    (harmless : Harmless kind text behind) (reharmless : Harmless kind other behind) :
    bracedCode false (kind.opener ++ (text ++ behind)) = bracedCode false (kind.opener ++ (other ++ behind)) := by
  cases kind with
  | line =>
      obtain rfl : behind = [] := fills
      have hidden : ∀ text, Harmless .line text [] → bracedCode false ('/' :: '/' :: text) = ([], false) :=
        fun _ harmless => bracedCode_line harmless.1 harmless.2
      rw [List.append_nil, List.append_nil]
      exact (hidden text harmless).trans (hidden other reharmless).symm
  | block =>
      have hidden : ∀ text, Fills .block text behind → Harmless .block text behind →
          bracedCode false ('/' :: '*' :: (text ++ behind)) = bracedCode true behind :=
        fun _ fills harmless => (bracedCode_opens _).trans (bracedCode_text fills harmless)
      exact (hidden text fills harmless).trans (hidden other refills reharmless).symm

theorem bracedCode_comment {inComment : Bool} {kind : CommentKind} (oneLine : '\n' ∉ before)
    (opened : Opens (.ofComment inComment) kind before) (fills : Fills kind text behind)
    (refills : Fills kind other behind)
    (legible : Legible (.ofComment inComment) (before ++ text ++ behind) before.length)
    (relegible : Legible (.ofComment inComment) (before ++ other ++ behind) before.length) :
    bracedCode inComment (before ++ text ++ behind) = bracedCode inComment (before ++ other ++ behind) := by
  have harmless := legible kind before text behind rfl (Nat.le_refl _) opened fills
  have reharmless := relegible kind before other behind rfl (Nat.le_refl _) opened refills
  cases opened with
  | here kind code outside =>
      have feed : '\n' ∉ code := fun member => oneLine (List.mem_append_left _ member)
      obtain ⟨kept, reads⟩ := (closed_of_after feed outside).readsAs
      have split : ∀ text : List Char, code ++ kind.opener ++ text ++ behind =
          code ++ (kind.opener ++ (text ++ behind)) := by simp
      have shorter : code.length ≤ (code ++ kind.opener).length := by simp
      have hidden := bracedCode_opener kind fills refills harmless reharmless
      rw [split] at legible relegible
      rw [split, split]
      calc bracedCode inComment (code ++ (kind.opener ++ (text ++ behind)))
        _ = (kept ++ (bracedCode false (kind.opener ++ (text ++ behind))).1,
              (bracedCode false (kind.opener ++ (text ++ behind))).2) := reads _ (legible.upTo shorter)
        _ = (kept ++ (bracedCode false (kind.opener ++ (other ++ behind))).1,
              (bracedCode false (kind.opener ++ (other ++ behind))).2) := by rw [hidden]
        _ = bracedCode inComment (code ++ (kind.opener ++ (other ++ behind))) :=
              (reads _ (relegible.upTo shorter)).symm
  | above inside =>
      cases inComment with
      | false => cases inside
      | true =>
          rw [List.nil_append, List.nil_append]
          exact (bracedCode_text fills harmless).trans (bracedCode_text refills reharmless).symm

end comments

section lines

theorem inComment_behind {inComment : Bool} {line : List Char} (oneLine : '\n' ∉ line)
    (legible : Legible (.ofComment inComment) line line.length)
    (clear : ((Mode.ofComment inComment).after line).Clear) :
    ((Mode.ofComment inComment).after line).endLine = .ofComment (bracedCode inComment line).2 := by
  cases ends_of_clear line oneLine inComment clear with
  | inside inside =>
      rw [bracedCode_inside inside]
      exact Mode.blockComment_endLine inside
  | @behind _ code last closed ending =>
      obtain ⟨kept, reads⟩ := closed.readsAs
      have shorter : code.length ≤ (code ++ last).length := by simp
      rw [reads last (legible.upTo shorter), Mode.after_append, closed.after]
      cases ending with
      | nil => rw [bracedCode_nil, Mode.after_nil]; rfl
      | slash => rw [bracedCode_cons (by decide) (by simp), bracedCode_nil]; rfl
      | line text =>
          have harmless : Harmless .line text [] :=
            legible .line (code ++ ['/', '/']) text [] (by simp) (by simp) (Opens.here .line code closed.after) rfl
          have still : Mode.code.after ('/' :: '/' :: text) = .lineComment := Mode.lineComment_after text
          rw [bracedCode_line harmless.1 harmless.2, still]
          rfl
      | block inside =>
          rw [bracedCode_opens, bracedCode_inside inside]
          exact Mode.blockComment_endLine inside

def Mode.behind (lines : List (List Char)) : Mode := lines.foldl (fun mode line => (mode.after line).endLine) .code

def commentBehind (lines : List (List Char)) : Bool :=
  lines.foldl (fun inComment line => (bracedCode inComment line).2) false

/-- Behind these lines a lexer is in a block comment if the scan is, and in code otherwise. -/
def InStep (lines : List (List Char)) : Prop := Mode.behind lines = .ofComment (commentBehind lines)

/-- No comment of the lines does harm, and none of the lines leaves a literal open. -/
def LegibleLines : Mode → List (List Char) → Prop
  | _, [] => True
  | mode, line :: rest =>
    Legible mode line line.length ∧ (mode.after line).Clear ∧ LegibleLines (mode.after line).endLine rest

instance LegibleLines.decidable : ∀ mode lines, Decidable (LegibleLines mode lines)
  | _, [] => isTrue trivial
  | mode, line :: rest =>
    have := LegibleLines.decidable (mode.after line).endLine rest
    inferInstanceAs (Decidable
      (Legible mode line line.length ∧ (mode.after line).Clear ∧ LegibleLines (mode.after line).endLine rest))

theorem inStep_of_legible {lines : List (List Char)} (oneLine : ∀ line ∈ lines, '\n' ∉ line)
    (legible : LegibleLines .code lines) : InStep lines := by
  have run : ∀ inComment, LegibleLines (.ofComment inComment) lines →
      lines.foldl (fun (mode : Mode) line => (mode.after line).endLine) (.ofComment inComment) =
        Mode.ofComment (lines.foldl (fun inComment line => (bracedCode inComment line).2) inComment) := by
    clear legible
    induction lines with
    | nil => exact fun _ _ => rfl
    | cons line rest ih =>
        intro inComment legible
        obtain ⟨here, clear, others⟩ := legible
        have step := inComment_behind (oneLine line List.mem_cons_self) here clear
        rw [List.foldl_cons, List.foldl_cons, step]
        rw [step] at others
        exact ih (fun line member => oneLine line (List.mem_cons_of_mem _ member)) _ others
  exact run false legible

theorem step_inComment (braces : Braces) (scan : BracedScan) (raw : List Char) (line : Nat) :
    (scan.step braces raw line).inComment = (bracedCode scan.inComment raw).2 := by
  rw [step_eq]
  dsimp only
  split
  · rw [BracedScan.stepImports]
    split
    · rfl
    · split <;> rfl
  · split
    · rfl
    · split <;> rfl

theorem scanBraced_inComment (braces : Braces) (lines : List (List Char)) : ∀ (scan : BracedScan) (line : Nat),
    (scanBraced braces scan line lines).inComment =
      lines.foldl (fun inComment line => (bracedCode inComment line).2) scan.inComment := by
  induction lines with
  | nil => exact fun _ _ => rfl
  | cons raw rest ih =>
      intro scan line
      rw [scanBraced, ih, step_inComment, List.foldl_cons]

end lines

end FlowAtlas.Extraction
