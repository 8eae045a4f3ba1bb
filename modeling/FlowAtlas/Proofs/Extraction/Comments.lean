import FlowAtlas.Proofs.Extraction.Legible
import FlowAtlas.Proofs.Extraction.Unquoted
import FlowAtlas.Proofs.Text.Lines

namespace FlowAtlas.Extraction

section trimming

theorem mem_dropWhile {α : Type} {p : α → Bool} {x : α} (kept : p x = false) {s : List α} (member : x ∈ s) :
    x ∈ s.dropWhile p := by
  induction s with
  | nil => cases member
  | cons c rest ih =>
      rw [List.dropWhile_cons]
      split
      · rename_i dropped
        rcases List.mem_cons.mp member with rfl | member
        · rw [kept] at dropped
          cases dropped
        · exact ih member
      · exact member

theorem mem_trim {x : Char} (kept : Text.isBlank x = false) {s : List Char} (member : x ∈ s) : x ∈ Text.trim s := by
  have front : x ∈ Text.trimStart s := mem_dropWhile kept member
  rw [Text.trim, Text.trimEnd, List.mem_reverse]
  exact mem_dropWhile kept (List.mem_reverse.mpr front)

theorem trim_sublist (s : List Char) : (Text.trim s).Sublist s := by
  have tail : (Text.trimEnd (Text.trimStart s)).Sublist (Text.trimStart s) := by
    rw [Text.trimEnd, ← List.reverse_sublist, List.reverse_reverse]
    exact List.dropWhile_sublist _
  exact tail.trans (List.dropWhile_sublist _)

theorem trimEnd_cons {c : Char} (kept : Text.isBlank c = false) (rest : List Char) :
    (Text.trimEnd (c :: rest)).head? = some c := by
  have last : [c].dropWhile Text.isBlank = [c] := by rw [List.dropWhile_cons, if_neg (by simp [kept])]
  rw [Text.trimEnd, List.reverse_cons, List.dropWhile_append, last]
  split <;> simp

theorem trim_head {before : List Char} {x : Char} (kept : Text.isBlank x = false) (member : x ∈ before)
    (rest : List Char) : (Text.trim (before ++ rest)).head? = (Text.trimStart before).head? := by
  have found : x ∈ Text.trimStart before := mem_dropWhile kept member
  rw [Text.trim]
  cases start : Text.trimStart before with
  | nil =>
      rw [start] at found
      cases found
  | cons c tail =>
      have plain : Text.isBlank c = false := by
        have first := List.head?_dropWhile_not Text.isBlank before
        rw [Text.trimStart] at start
        rw [start] at first
        exact first
      have split : Text.trimStart (before ++ rest) = c :: (tail ++ rest) := by
        rw [Text.trimStart] at start
        rw [Text.trimStart, List.dropWhile_append, start]
        rfl
      rw [split, trimEnd_cons plain, List.head?_cons]

theorem opensImports_of_mem {raw : List Char} {c : Char} (plain : Text.isBlank c = false)
    (absent : c ∉ "import (".toList) (member : c ∈ raw) (braces : Braces) : (braces.marks raw).opensImports = false := by
  cases braces with
  | literal => rfl
  | typed =>
      have held : c ∈ Text.trim raw := mem_trim plain member
      have differs : ∀ word : String, c ∉ word.toList → (Text.trim raw == word.toList) = false := by
        intro word outside
        rw [beq_eq_false_iff_ne]
        exact fun same => outside (same ▸ held)
      have short : c ∉ "import(".toList := fun among => absent (List.Sublist.subset (by decide) among)
      change (Text.trim raw == "import (".toList || Text.trim raw == "import(".toList) = false
      rw [differs _ absent, differs _ short]
      rfl

theorem typed_marks {before : List Char} (slash : '/' ∈ before) (rest other : List Char) :
    Braces.typed.marks (before ++ rest) = Braces.typed.marks (before ++ other) := by
  have plain : Text.isBlank '/' = false := by decide
  have closes : ∀ rest, (Braces.typed.marks (before ++ rest)).closesImports =
      ((Text.trimStart before).head? == some ')') := by
    intro rest
    rw [← trim_head plain slash rest]
    change List.isPrefixOf [')'] (Text.trim (before ++ rest)) = _
    cases Text.trim (before ++ rest) with
    | nil => rfl
    | cons c tail => simp [List.isPrefixOf, Bool.beq_comm]
  have opens : ∀ rest, (Braces.typed.marks (before ++ rest)).opensImports = false := fun rest =>
    opensImports_of_mem plain (by decide) (List.mem_append_left rest slash) .typed
  have same : ∀ rest, Braces.typed.marks (before ++ rest) =
      { opensImports := false, closesImports := (Text.trimStart before).head? == some ')' } := by
    intro rest
    rw [← opens rest, ← closes rest]
    rfl
  rw [same, same]

end trimming

/-- In a language with braces the text of a comment may be replaced on any of its lines. What is found is the same but
for imports and snippets, if the scan is in step with a lexer in front of the line, if no comment up to there does
harm with either text, and if what is read off the line as it stands is the same. -/
theorem ofText_comment (braces : Braces) (path : String) {first second : String} {front back : List (List Char)}
    {kind : CommentKind} {before text other behind : List Char}
    (reads : Text.lines first.toList = front ++ (before ++ text ++ behind) :: back)
    (rereads : Text.lines second.toList = front ++ (before ++ other ++ behind) :: back)
    (opened : Opens (Mode.behind front) kind before)
    (fills : Fills kind text behind) (refills : Fills kind other behind) (inStep : InStep front)
    (legible : Legible (Mode.behind front) (before ++ text ++ behind) before.length)
    (relegible : Legible (Mode.behind front) (before ++ other ++ behind) before.length)
    (marks : braces = .literal ∨ before = [] →
      braces.marks (before ++ text ++ behind) = braces.marks (before ++ other ++ behind)) :
    (ofText path first braces.dialect).unquoted = (ofText path second braces.dialect).unquoted := by
  have oneLine : '\n' ∉ before := by
    have whole := Text.lines_oneLine first.toList (before ++ text ++ behind) (by simp [reads])
    exact fun member => whole (by simp [member])
  have scanned : ∀ lines, findingsOf path braces.dialect lines =
      (scanBraced braces { findings := { file := path } } 1 lines).findings := by
    intro lines
    cases braces <;> rfl
  have comment : (scanBraced braces { findings := { file := path } } 1 front).inComment = commentBehind front :=
    scanBraced_inComment braces front _ 1
  rw [InStep] at inStep
  rw [inStep] at opened legible relegible
  have code : bracedCode (commentBehind front) (before ++ text ++ behind) =
      bracedCode (commentBehind front) (before ++ other ++ behind) :=
    bracedCode_comment oneLine opened fills refills legible relegible
  have marked : braces.marks (before ++ text ++ behind) = braces.marks (before ++ other ++ behind) := by
    cases braces with
    | literal => exact marks (Or.inl rfl)
    | typed =>
        cases opened with
        | above _ => exact marks (Or.inr rfl)
        | here kind between _ =>
            have slash : '/' ∈ between ++ kind.opener := by cases kind <;> simp [CommentKind.opener]
            rw [List.append_assoc _ text, List.append_assoc _ other]
            exact typed_marks slash _ _
  have replaced : (scanBraced braces { findings := { file := path } } 1
        (front ++ (before ++ text ++ behind) :: back)).unquoted =
      (scanBraced braces { findings := { file := path } } 1 (front ++ (before ++ other ++ behind) :: back)).unquoted := by
    apply scanBraced_replace
    · rw [comment, code]
    · exact marked
  have findings : (findingsOf path braces.dialect (Text.lines first.toList)).unquoted =
      (findingsOf path braces.dialect (Text.lines second.toList)).unquoted := by
    rw [scanned, scanned, reads, rereads]
    exact congrArg BracedScan.findings replaced
  calc (ofText path first braces.dialect).unquoted
    _ = (findingsOf path braces.dialect (Text.lines first.toList)).unquoted.finish := finish_unquoted _
    _ = (findingsOf path braces.dialect (Text.lines second.toList)).unquoted.finish := by rw [findings]
    _ = (ofText path second braces.dialect).unquoted := (finish_unquoted _).symm

/-- Behind a line with a comment of its own, an apostrophe, a condition and a brace in a comment are not code. -/
theorem ofText_comment_apostrophe :
    let first := "/* it's f */\nfunction f() \x7b\n  g(); // once\n\x7d\n"
    let second := "/* it's f */\nfunction f() \x7b\n  g(); // if (it's) \x7b h(\n\x7d\n"
    (ofText "a.js" first .brace).unquoted = (ofText "a.js" second .brace).unquoted := by
  intro first second
  let front := ["/* it's f */".toList, "function f() \x7b".toList]
  let back := ["\x7d".toList]
  let before := "  g(); ".toList ++ CommentKind.line.opener
  let text := " once".toList
  let other := " if (it's) \x7b h(".toList
  have reads : Text.lines first.toList = front ++ (before ++ text ++ []) :: back := by decide +kernel
  have rereads : Text.lines second.toList = front ++ (before ++ other ++ []) :: back := by decide +kernel
  have opened : Opens (Mode.behind front) .line before := Opens.here .line "  g(); ".toList (by decide)
  have inStep : InStep front := inStep_of_legible (by decide) (by decide +kernel)
  have legible : Legible (Mode.behind front) (before ++ text ++ []) before.length := by decide +kernel
  have relegible : Legible (Mode.behind front) (before ++ other ++ []) before.length := by decide +kernel
  exact ofText_comment .literal "a.js" reads rereads opened rfl rfl inStep legible relegible
    fun _ => by decide +kernel

end FlowAtlas.Extraction
