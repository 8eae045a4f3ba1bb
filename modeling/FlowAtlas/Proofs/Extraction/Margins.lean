import FlowAtlas.Proofs.Extraction.LineCode
import FlowAtlas.Proofs.Extraction.Runs
import FlowAtlas.Proofs.Extraction.Unquoted
import FlowAtlas.Proofs.Text.Margins

namespace FlowAtlas.Extraction

section blanks

variable {gap : List Char} (blank : ∀ c ∈ gap, Text.isBlank c = true)

include blank

theorem notMem_of_blank {mark : Char} (solid : Text.isBlank mark = false) : mark ∉ gap := by
  intro member
  rw [blank mark member] at solid
  cases solid

section literals

theorem closing_blank {quote : Char} (solid : quote ∉ gap) (escaped : Bool) : closing? quote escaped gap = none := by
  induction gap generalizing escaped with
  | nil => rfl
  | cons c rest ih =>
      obtain ⟨other, others⟩ := List.ne_and_not_mem_of_not_mem_cons solid
      have later := ih (fun d member => blank d (List.mem_cons_of_mem _ member)) others
      rw [closing?]
      split
      · split
        · rfl
        · exact later false
      · rw [if_neg (by simpa using other.symm)]
        exact later _

theorem closing_append_blank {quote : Char} (solid : quote ∉ gap) (s : List Char) : ∀ escaped : Bool,
    closing? quote escaped s = none → closing? quote escaped (s ++ gap) = none := by
  induction s with
  | nil => exact fun escaped _ => closing_blank blank solid escaped
  | cons c rest ih =>
      intro escaped unclosed
      rw [closing?] at unclosed
      rw [List.cons_append, closing?]
      split
      · rename_i behindBackslash
        rw [if_pos behindBackslash] at unclosed
        split
        · rfl
        · rename_i inside
          rw [if_neg inside] at unclosed
          exact ih false unclosed
      · rename_i plain
        rw [if_neg plain] at unclosed
        split
        · rename_i closes
          rw [if_pos closes] at unclosed
          cases unclosed
        · rename_i other
          rw [if_neg other] at unclosed
          exact ih _ unclosed

theorem not_isQuote_of_blank {c : Char} (member : c ∈ gap) : isQuote c = false := by
  by_contra quoted
  have quoted : isQuote c = true := Bool.not_eq_false _ ▸ quoted
  have among : c ∈ [doubleQuote, singleQuote, backQuote] := by simpa [isQuote, or_assoc] using quoted
  have solid : ([doubleQuote, singleQuote, backQuote].all fun quote => !Text.isBlank quote) = true := by decide
  have apart : Text.isBlank c = false := by simpa using List.all_eq_true.mp solid c among
  exact notMem_of_blank blank apart member

theorem notMem_of_isQuote {quote : Char} (quoted : isQuote quote = true) : quote ∉ gap := by
  intro member
  rw [not_isQuote_of_blank blank member] at quoted
  cases quoted

theorem withoutLiterals_blank_append (s : List Char) : withoutLiterals (gap ++ s) = gap ++ withoutLiterals s := by
  induction gap with
  | nil => rfl
  | cons c rest ih =>
      rw [List.cons_append, withoutLiterals_plain (not_isQuote_of_blank blank List.mem_cons_self),
        ih fun d member => blank d (List.mem_cons_of_mem _ member)]
      rfl

theorem withoutLiterals_append_blank (s : List Char) : withoutLiterals (s ++ gap) = withoutLiterals s ++ gap := by
  induction s using literals_induction with
  | nil => simpa [withoutLiterals_nil] using withoutLiterals_blank_append blank []
  | literal c rest further ends ih =>
      have quoted := isQuote_of_literalEnd ends
      rw [literalEnd?, if_pos quoted] at ends
      have longer : literalEnd? (c :: (rest ++ gap)) = some (further ++ gap) := by
        rw [literalEnd?, if_pos quoted]
        exact closing_append rest gap ends
      have short : literalEnd? (c :: rest) = some further := by rw [literalEnd?, if_pos quoted, ends]
      rw [List.cons_append, withoutLiterals_literal longer, withoutLiterals_literal short, ih]
      rfl
  | between c rest ends ih =>
      have longer : literalEnd? (c :: (rest ++ gap)) = none := by
        rw [literalEnd?] at ends ⊢
        split
        · rename_i quoted
          rw [if_pos quoted] at ends
          exact closing_append_blank blank (notMem_of_isQuote blank quoted) rest false ends
        · rfl
      rw [List.cons_append, withoutLiterals_between longer, withoutLiterals_between ends, ih]
      rfl

end literals

section comments

variable {a b : Char}

theorem cutAt_blank_append (solid : Text.isBlank a = false) (s : List Char) :
    Text.cutAt [a, b] (gap ++ s) = (Text.cutAt [a, b] s).map fun cut => (gap ++ cut.1, cut.2) := by
  induction gap with
  | nil => simp
  | cons c rest ih =>
      have apart : c = a → (rest ++ s).head? ≠ some b := by
        rintro rfl
        exact absurd List.mem_cons_self (notMem_of_blank blank solid)
      rw [List.cons_append, cutAt_cons apart, ih fun d member => blank d (List.mem_cons_of_mem _ member),
        Option.map_map]
      rfl

theorem cutAt_append_blank (solid : Text.isBlank b = false) (s : List Char) :
    Text.cutAt [a, b] (s ++ gap) = (Text.cutAt [a, b] s).map fun cut => (cut.1, cut.2 ++ gap) := by
  have second : ∀ {rest : List Char}, (rest ++ gap).head? = some b → rest.head? = some b := by
    intro rest head
    cases rest with
    | nil => exact absurd (List.mem_of_mem_head? head) (notMem_of_blank blank solid)
    | cons d more => exact head
  induction s with
  | nil =>
      have apart : ∀ {front rest : List Char}, gap ≠ front ++ (a :: b :: rest) := by
        rintro front rest rfl
        exact absurd (by simp) (notMem_of_blank blank solid)
      cases cut : Text.cutAt [a, b] ([] ++ gap) with
      | none => rfl
      | some parts => exact absurd (cutAt_split _ cut).1 apart
  | cons c rest ih =>
      by_cases here : c = a ∧ rest.head? = some b
      · obtain ⟨rfl, head⟩ := here
        obtain ⟨further, rfl⟩ := List.head?_eq_some_iff.mp head
        rw [List.cons_append, List.cons_append, cutAt_here, cutAt_here]
        rfl
      · have apart : c = a → rest.head? ≠ some b := fun same head => here ⟨same, head⟩
        rw [List.cons_append, cutAt_cons fun same head => apart same (second head), cutAt_cons apart, ih,
          Option.map_map, Option.map_map]
        rfl

theorem strip_blank_append (s : List Char) (inComment : Bool) : ∃ lead, (∀ c ∈ lead, Text.isBlank c = true) ∧
    stripBlockComments inComment (gap ++ s) =
      (lead ++ (stripBlockComments inComment s).1, (stripBlockComments inComment s).2) := by
  cases inComment with
  | true =>
      have cut := cutAt_blank_append blank (a := '*') (b := '/') (by decide) s
      refine ⟨[], by simp, ?_⟩
      cases inside : Text.cutAt ['*', '/'] s with
      | none =>
          rw [inside] at cut
          rw [strip_inside cut, strip_inside inside]
          rfl
      | some parts =>
          rw [inside] at cut
          rw [strip_closes cut, strip_closes inside]
          rfl
  | false =>
      have cut := cutAt_blank_append blank (a := '/') (b := '*') (by decide) s
      refine ⟨gap, blank, ?_⟩
      cases outside : Text.cutAt ['/', '*'] s with
      | none =>
          rw [outside] at cut
          rw [strip_kept cut, strip_kept outside]
      | some parts =>
          rw [outside] at cut
          rw [strip_opens cut, strip_opens outside, List.append_assoc]

theorem strip_append_blank (s : List Char) (inComment : Bool) : ∃ tail, (∀ c ∈ tail, Text.isBlank c = true) ∧
    stripBlockComments inComment (s ++ gap) =
      ((stripBlockComments inComment s).1 ++ tail, (stripBlockComments inComment s).2) := by
  fun_induction stripBlockComments inComment s with
  | case1 s inside =>
      have cut := cutAt_append_blank blank (a := '*') (b := '/') (by decide) s
      rw [inside] at cut
      exact ⟨[], by simp, strip_inside cut⟩
  | case2 s before rest closes ih =>
      have cut := cutAt_append_blank blank (a := '*') (b := '/') (by decide) s
      rw [closes] at cut
      rw [strip_closes cut]
      exact ih
  | case3 inComment s outside none =>
      have cut := cutAt_append_blank blank (a := '/') (b := '*') (by decide) s
      rw [none] at cut
      rw [eq_false_of_ne_true outside, strip_kept cut]
      exact ⟨gap, blank, rfl⟩
  | case4 inComment s outside kept rest opens tail stillOpen same ih =>
      have cut := cutAt_append_blank blank (a := '/') (b := '*') (by decide) s
      rw [opens] at cut
      obtain ⟨more, blanks, later⟩ := ih
      rw [same] at later
      refine ⟨more, blanks, ?_⟩
      rw [eq_false_of_ne_true outside, strip_opens cut, later, List.append_assoc]

theorem dropLine_blank_append (s : List Char) : dropLineComment (gap ++ s) = gap ++ dropLineComment s := by
  rw [dropLineComment, dropLineComment, cutAt_blank_append blank (by decide)]
  cases Text.cutAt ['/', '/'] s <;> rfl

theorem dropLine_append_blank (s : List Char) : ∃ tail, (∀ c ∈ tail, Text.isBlank c = true) ∧
    dropLineComment (s ++ gap) = dropLineComment s ++ tail := by
  rw [dropLineComment, dropLineComment, cutAt_append_blank blank (by decide)]
  cases Text.cutAt ['/', '/'] s with
  | none => exact ⟨gap, blank, rfl⟩
  | some parts => exact ⟨[], by simp, (List.append_nil _).symm⟩

end comments

end blanks

/-- Lines that are read alike, whether a comment is open in front of them or not. -/
structure ReadAlike (first second : List Char) : Prop where
  bare : Text.trim first = Text.trim second
  code : ∀ inComment, Text.trim (bracedCode inComment first).1 = Text.trim (bracedCode inComment second).1
  comment : ∀ inComment, (bracedCode inComment first).2 = (bracedCode inComment second).2

theorem ReadAlike.trans {first second third : List Char} (front : ReadAlike first second)
    (back : ReadAlike second third) : ReadAlike first third :=
  ⟨front.bare.trans back.bare, fun inComment => (front.code inComment).trans (back.code inComment),
    fun inComment => (front.comment inComment).trans (back.comment inComment)⟩

theorem readAlike_blank_append {gap : List Char} (blank : ∀ c ∈ gap, Text.isBlank c = true) (raw : List Char) :
    ReadAlike (gap ++ raw) raw := by
  have read : ∀ inComment, ∃ lead, (∀ c ∈ lead, Text.isBlank c = true) ∧ bracedCode inComment (gap ++ raw) =
      (lead ++ (bracedCode inComment raw).1, (bracedCode inComment raw).2) := by
    intro inComment
    obtain ⟨lead, blanks, stripped⟩ := strip_blank_append blank (withoutLiterals raw) inComment
    refine ⟨lead, blanks, ?_⟩
    rw [bracedCode_eq, withoutLiterals_blank_append blank, stripped, dropLine_blank_append blanks]
    rfl
  refine ⟨Text.trim_blank_append blank raw, fun inComment => ?_, fun inComment => ?_⟩
  · obtain ⟨lead, blanks, same⟩ := read inComment
    rw [same]
    exact Text.trim_blank_append blanks _
  · obtain ⟨lead, _, same⟩ := read inComment
    rw [same]

theorem readAlike_append_blank {gap : List Char} (blank : ∀ c ∈ gap, Text.isBlank c = true) (raw : List Char) :
    ReadAlike (raw ++ gap) raw := by
  have read : ∀ inComment, ∃ tail, (∀ c ∈ tail, Text.isBlank c = true) ∧ bracedCode inComment (raw ++ gap) =
      ((bracedCode inComment raw).1 ++ tail, (bracedCode inComment raw).2) := by
    intro inComment
    obtain ⟨more, blanks, stripped⟩ := strip_append_blank blank (withoutLiterals raw) inComment
    obtain ⟨tail, trailing, dropped⟩ := dropLine_append_blank blanks (stripBlockComments inComment (withoutLiterals raw)).1
    refine ⟨tail, trailing, ?_⟩
    rw [bracedCode_eq, withoutLiterals_append_blank blank, stripped, dropped]
    rfl
  refine ⟨Text.trim_append_blank blank raw, fun inComment => ?_, fun inComment => ?_⟩
  · obtain ⟨tail, blanks, same⟩ := read inComment
    rw [same]
    exact Text.trim_append_blank blanks _
  · obtain ⟨tail, _, same⟩ := read inComment
    rw [same]

theorem readAlike_unmargined (raw : List Char) : ReadAlike raw (Text.unmargined raw) := by
  obtain ⟨left, right, before, behind, split⟩ := Text.unmargined_split raw
  have front := readAlike_blank_append before (Text.unmargined raw ++ right)
  rw [← split] at front
  exact front.trans (readAlike_append_blank behind _)

section scan

variable {raw other : List Char}

theorem recordLine_readAlike (alike : ReadAlike raw other) (findings : Findings) (code callText : List Char)
    (line : Nat) : findings.recordLine code callText raw line = findings.recordLine code callText other line := by
  have changed : ∀ routine, Findings.withLine routine code callText raw line =
      Findings.withLine routine code callText other line := by
    intro routine
    rw [Findings.withLine, Findings.withLine, Findings.decisionOf?, Findings.decisionOf?, alike.bare]
  rw [Findings.recordLine, Findings.recordLine, funext changed]

theorem step_readAlike (alike : ReadAlike raw other) (braces : Braces) (scan : BracedScan) (line : Nat) :
    scan.step braces raw line = scan.step braces other line := by
  have same : ∀ (scan : BracedScan) (code : List Char),
      scan.stepCode braces code raw line = scan.stepCode braces code other line := by
    intro scan code
    rw [BracedScan.stepCode, BracedScan.stepCode, alike.bare]
    simp only [recordLine_readAlike alike]
  rw [step_eq, step_eq]
  dsimp only
  rw [alike.bare, alike.code, alike.comment, same]

theorem step_nil (braces : Braces) (scan : BracedScan) (line : Nat) : scan.step braces [] line = scan := by
  have comment : bracedCode scan.inComment [] = ([], scan.inComment) := by
    cases scan.inComment with
    | true => exact bracedCode_inside rfl
    | false => exact bracedCode_nil
  have imports : scan.stepImports [] line = scan := by
    have unclosed : Text.startsWith [] ")" = false := rfl
    have none : Generic.blockImport.search? [] = none := by decide
    rw [BracedScan.stepImports, unclosed, none]
    rfl
  have blank : Text.trim [] = [] := rfl
  have closed : (([] : List Char) == "import (".toList || ([] : List Char) == "import(".toList) = false := by decide
  rw [step_eq]
  dsimp only
  rw [comment, blank, closed, Bool.and_false]
  split
  · exact imports
  · rfl

theorem scanBraced_unmargined (braces : Braces) (lines : List (List Char)) : ∀ (scan : BracedScan) (line : Nat),
    scanBraced braces scan line (lines.map Text.unmargined) = scanBraced braces scan line lines := by
  induction lines with
  | nil => exact fun _ _ => rfl
  | cons raw rest ih =>
      intro scan line
      rw [List.map_cons, scanBraced, scanBraced, step_readAlike (readAlike_unmargined raw), ih]

theorem scanBraced_rdropWhile (braces : Braces) (lines : List (List Char)) (scan : BracedScan) (line : Nat) :
    scanBraced braces scan line (lines.rdropWhile List.isEmpty) = scanBraced braces scan line lines := by
  induction lines using List.reverseRecOn with
  | nil => rfl
  | append_singleton front last ih =>
      by_cases empty : last.isEmpty = true
      · rw [List.rdropWhile_concat_pos _ _ _ empty, ih, scanBraced_append, List.isEmpty_iff.mp empty, scanBraced,
          step_nil, scanBraced]
      · rw [List.rdropWhile_concat_neg _ _ _ empty]

end scan

/-- Spaces and tabs around the lines of a text make no difference to anything that is found in it, where blocks stand
in braces. -/
theorem ofText_innerLines (braces : Braces) (path : String) {first second : String}
    (same : Text.innerLines first.toList = Text.innerLines second.toList) :
    ofText path first braces.dialect = ofText path second braces.dialect := by
  have findings : ∀ text : String, ofText path text braces.dialect =
      (scanBraced braces { findings := { file := path } } 1 (Text.innerLines text.toList)).findings.finish := by
    intro text
    rw [Text.innerLines, scanBraced_rdropWhile, scanBraced_unmargined]
    cases braces <;> rfl
  rw [findings, findings, same]

theorem ofText_innerLines_block :
    ofText "a.go" "import (\n\"fmt\"\n)\nfunc (s *S) run(a int,\nb int) \x7b\n/* if x\n*/ g(\"a\") // b\n\x7d\n" .generic =
      ofText "a.go" ("\timport (  \n    \"fmt\"\t\n )\nfunc (s *S) run(a int, \n\t\tb int) \x7b\t\n  /* if x  \n" ++
        "\t*/ g(\"a\") // b \n  \x7d\n\t") .generic :=
  ofText_innerLines .typed "a.go" (by decide +kernel)

end FlowAtlas.Extraction
