import FlowAtlas.Proofs.Extraction.Quoting
import FlowAtlas.Proofs.Extraction.Unlisted
import FlowAtlas.Proofs.Text.Lines
import FlowAtlas.Proofs.Text.Separators

namespace FlowAtlas.Extraction

/-- The rest of a line in a comment, or the part of a literal on a line with what follows it there. The part is read
from the quote that opens the literal on, or from a place in a long one that is not behind a quote. -/
inductive Hides : Quoting → List Char → List Char → Prop where
  | comment (text : List Char) : Hides .comment text []
  | short {quote : LongQuote} {text rest : List Char}
      (closes : closing? quote.mark false (text ++ [quote.mark]) = some [])
      (apart : text = [] → rest.head? ≠ some quote.mark) : Hides (.one quote) text (quote.mark :: rest)
  | goesOn {quote : LongQuote} {text : List Char} (inside : Text.cutAt quote.text text = none) :
      Hides (.long quote 0) text []
  | ends {quote : LongQuote} {text rest : List Char}
      (first : Text.cutAt quote.text (text ++ (quote.text ++ rest)) = some (text, rest)) :
      Hides (.long quote 0) text (quote.text ++ rest)

/-- A text without quotes and backslashes. -/
def Plain (text : List Char) : Prop := ∀ c ∈ text, LongQuote.of? c = none ∧ c ≠ '\\'

instance (text : List Char) : Decidable (Plain text) := List.decidableBAll _ text

section reading

variable {quote : LongQuote}

theorem Plain.tail {c : Char} {rest : List Char} (plain : Plain (c :: rest)) : Plain rest :=
  fun d member => plain d (List.mem_cons_of_mem _ member)

theorem Plain.mark_notMem {text : List Char} (plain : Plain text) : quote.mark ∉ text := by
  intro member
  have none := (plain _ member).1
  rw [Quoting.of_mark] at none
  cases none

theorem plain_closing {text : List Char} (plain : Plain text) :
    closing? quote.mark false (text ++ [quote.mark]) = some [] := by
  induction text with
  | nil => simp [closing?]
  | cons c rest ih =>
      have escape : (c == '\\') = false := by simpa using (plain c List.mem_cons_self).2
      have other : (c == quote.mark) = false := by
        simpa using (List.ne_and_not_mem_of_not_mem_cons plain.mark_notMem).1.symm
      rw [List.cons_append, closing?, other, escape]
      exact ih plain.tail

theorem plain_cutAt {text : List Char} (plain : Plain text) : Text.cutAt quote.text text = none := by
  rw [Quoting.text_eq]
  exact Text.cutAt_eq_none plain.mark_notMem

theorem plain_cutAt_append {text : List Char} (plain : Plain text) (rest : List Char) :
    Text.cutAt quote.text (text ++ (quote.text ++ rest)) = some (text, rest) := by
  rw [Quoting.text_eq]
  exact Text.cutAt_append plain.mark_notMem rest

theorem Hides.refill {mode : Quoting} {text other behind : List Char} (hides : Hides mode text behind)
    (fits : mode = .comment ∨ other ≠ [] ∧ Plain other) : Hides mode other behind := by
  cases hides with
  | comment => exact .comment other
  | short =>
      obtain ⟨given, plain⟩ := fits.resolve_left nofun
      exact .short (plain_closing plain) fun none => absurd none given
  | goesOn =>
      obtain ⟨_, plain⟩ := fits.resolve_left nofun
      exact .goesOn (plain_cutAt plain)
  | ends =>
      obtain ⟨_, plain⟩ := fits.resolve_left nofun
      exact .ends (plain_cutAt_append plain _)

theorem run_inside {text : List Char} (inside : Text.cutAt quote.text text = none) :
    (Quoting.long quote 0).run text = ([], some quote) := by
  induction text with
  | nil => rfl
  | cons c rest ih =>
      rw [Text.cutAt] at inside
      split at inside
      · cases inside
      · rename_i apart
        rw [Quoting.run_long_step (Bool.eq_false_iff.mpr apart)]
        exact ih (Option.map_eq_none_iff.mp inside)

theorem run_cut (s : List Char) : ∀ {text rest : List Char}, Text.cutAt quote.text s = some (text, rest) →
    (Quoting.long quote 0).run s = writeLiteral (Quoting.code.run rest) := by
  induction s with
  | nil =>
      intro text rest cut
      rw [Quoting.text_eq] at cut
      cases cut
  | cons c tail ih =>
      intro text rest cut
      rw [Text.cutAt] at cut
      split at cut
      · rename_i starts
        obtain ⟨more, split⟩ := List.isPrefixOf_iff_prefix.mp starts
        rw [← split, List.drop_left] at cut
        rw [← split, Quoting.run_closes, (Prod.mk.inj (Option.some.inj cut)).2]
      · rename_i apart
        obtain ⟨parts, cut, same⟩ := Option.map_eq_some_iff.mp cut
        rw [Quoting.run_long_step (Bool.eq_false_iff.mpr apart), ← (Prod.mk.inj same).2]
        exact ih cut

theorem run_short_literal {text rest : List Char}
    (closes : closing? quote.mark false (text ++ [quote.mark]) = some [])
    (apart : text = [] → rest.head? ≠ some quote.mark) (oneLine : '\n' ∉ text ++ quote.mark :: rest) :
    (Quoting.one quote).run (text ++ quote.mark :: rest) = writeLiteral (Quoting.code.run rest) := by
  cases text with
  | nil =>
      rw [List.nil_append, Quoting.run_one_mark]
      exact Quoting.run_two_other (apart rfl)
  | cons c more =>
      have whole := closing_append _ rest closes
      rw [List.append_assoc, List.singleton_append, List.nil_append] at whole
      rw [List.cons_append] at closes oneLine whole ⊢
      have other : c ≠ quote.mark := by
        rintro rfl
        simp [closing?] at closes
      have others : '\n' ∉ more ++ quote.mark :: rest := fun member => oneLine (List.mem_cons_of_mem _ member)
      rw [closing?, if_neg (by decide), if_neg (by simpa using other)] at whole
      rw [Quoting.run_one_other other, Quoting.run_short _ _ others, whole]

def Quoting.hidden : Quoting → List Char → List Char × Option LongQuote
  | .one _, behind => writeLiteral (code.run (behind.drop 1))
  | .long quote _, [] => ([], some quote)
  | .long _ _, behind => writeLiteral (code.run (behind.drop 3))
  | _, _ => ([], none)

theorem Hides.run_eq {mode : Quoting} {text behind : List Char} (hides : Hides mode text behind)
    (oneLine : '\n' ∉ text ++ behind) : mode.run (text ++ behind) = mode.hidden behind := by
  cases hides with
  | comment => exact Quoting.run_comment _
  | short closes apart => exact run_short_literal closes apart oneLine
  | goesOn inside =>
      rw [List.append_nil]
      exact run_inside inside
  | @ends quote _ rest first =>
      rw [run_cut _ first]
      cases quote <;> rfl

theorem fromCode_blank {c : Char} (blank : Text.isBlank c = true) : Quoting.fromCode c = .code := by
  have apart : ∀ d, Text.isBlank d = false → c ≠ d := by
    rintro d plain rfl
    rw [blank] at plain
    cases plain
  have hash := apart '#' (by decide)
  have double := apart doubleQuote (by decide)
  have single := apart singleQuote (by decide)
  simp [Quoting.fromCode, LongQuote.of?, hash, double, single]

theorem exists_plain {before : List Char} (left : Quoting.code.after before ≠ .code) :
    ∃ c ∈ before, Text.isBlank c = false := by
  induction before with
  | nil => exact absurd rfl left
  | cons c rest ih =>
      cases blank : Text.isBlank c with
      | false => exact ⟨c, List.mem_cons_self, blank⟩
      | true =>
          rw [Quoting.after_cons, Quoting.next, fromCode_blank blank] at left
          obtain ⟨d, member, plain⟩ := ih left
          exact ⟨d, List.mem_cons_of_mem _ member, plain⟩

theorem Hides.indentation_eq {before text behind : List Char} (hides : Hides (Quoting.code.after before) text behind)
    (first second : List Char) : Text.indentation (before ++ first) = Text.indentation (before ++ second) := by
  -- A line that begins in code is not blank up to what it hides, so its indentation does not depend on that.
  have left : Quoting.code.after before ≠ .code := by
    intro still
    rw [still] at hides
    cases hides
  obtain ⟨c, member, plain⟩ := exists_plain left
  rw [Text.indentation_append plain member, Text.indentation_append plain member]

theorem Hides.indentedCode_eq {opened : Option LongQuote} {before text other behind : List Char}
    (hides : Hides ((Quoting.ofOpened opened).after before) text behind)
    (fits : (Quoting.ofOpened opened).after before = .comment ∨ other ≠ [] ∧ Plain other)
    (line : '\n' ∉ before ++ (text ++ behind)) (newLine : '\n' ∉ before ++ (other ++ behind)) :
    indentedCode opened (before ++ (text ++ behind)) = indentedCode opened (before ++ (other ++ behind)) := by
  have same : ((Quoting.ofOpened opened).after before).run (text ++ behind) =
      ((Quoting.ofOpened opened).after before).run (other ++ behind) := by
    rw [hides.run_eq fun member => line (List.mem_append_right _ member),
      (hides.refill fits).run_eq fun member => newLine (List.mem_append_right _ member)]
  rw [Extraction.indentedCode_eq opened line, Extraction.indentedCode_eq opened newLine]
  exact Quoting.run_append before _ same

end reading

def Quoting.behind (lines : List (List Char)) : Quoting :=
  lines.foldl (fun mode line => (mode.after line).endLine) .code

theorem step_opened (scan : IndentedScan) (raw : List Char) (line : Nat) :
    (scan.step raw line).opened = (indentedCode scan.opened raw).2 := by
  have opened := congrArg IndentedScan.opened (indented_step_unlisted scan raw line)
  rw [IndentedScan.stepRead] at opened
  refine opened.trans ?_
  split <;> rfl

theorem ofOpened_read (opened : Option LongQuote) {raw : List Char} (oneLine : '\n' ∉ raw) :
    Quoting.ofOpened (indentedCode opened raw).2 = ((Quoting.ofOpened opened).after raw).endLine := by
  rw [indentedCode_eq opened oneLine, Quoting.run_opened, Quoting.endLine]

theorem step_mode (scan : IndentedScan) {raw : List Char} (oneLine : '\n' ∉ raw) (line : Nat) :
    Quoting.ofOpened (scan.step raw line).opened = ((Quoting.ofOpened scan.opened).after raw).endLine := by
  rw [step_opened, ofOpened_read scan.opened oneLine]

theorem scanIndented_opened (lines : List (List Char)) : ∀ (scan : IndentedScan) (line : Nat),
    (∀ line ∈ lines, '\n' ∉ line) → Quoting.ofOpened (scanIndented scan line lines).opened =
      lines.foldl (fun mode line => (mode.after line).endLine) (Quoting.ofOpened scan.opened) := by
  induction lines with
  | nil => exact fun _ _ _ => rfl
  | cons raw rest ih =>
      intro scan line oneLine
      obtain ⟨first, others⟩ := List.forall_mem_cons.mp oneLine
      rw [scanIndented, ih _ _ others, step_mode scan first, List.foldl_cons]

/-- In an indented file the text of a comment may be replaced, and the text of a literal on one of its lines by any
that is not empty and has no quotes and backslashes. What is found is the same but for snippets and exported
routines. -/
theorem ofText_hidden (path : String) {first second : String} {front back : List (List Char)}
    {before text other behind : List Char}
    (reads : Text.lines first.toList = front ++ (before ++ text ++ behind) :: back)
    (rereads : Text.lines second.toList = front ++ (before ++ other ++ behind) :: back)
    (hides : Hides ((Quoting.behind front).after before) text behind)
    (fits : (Quoting.behind front).after before = .comment ∨ other ≠ [] ∧ Plain other) :
    (ofText path first .indent).unlisted = (ofText path second .indent).unlisted := by
  let scan := scanIndented { findings := { file := path } } 1 front
  have oneLine : ∀ line ∈ Text.lines first.toList, '\n' ∉ line := Text.lines_oneLine first.toList
  have mode : Quoting.ofOpened scan.opened = Quoting.behind front :=
    scanIndented_opened front _ 1 fun line member => oneLine line (by simp [reads, member])
  rw [← mode] at hides fits
  have line : '\n' ∉ before ++ text ++ behind := oneLine _ (by simp [reads])
  have newLine : '\n' ∉ before ++ other ++ behind := Text.lines_oneLine second.toList _ (by simp [rereads])
  rw [List.append_assoc] at line newLine
  have indent : scan.opened = none →
      Text.indentation (before ++ (text ++ behind)) = Text.indentation (before ++ (other ++ behind)) := by
    intro none
    rw [none] at hides
    exact hides.indentation_eq _ _
  have replaced : (scanIndented { findings := { file := path } } 1
        (front ++ (before ++ (text ++ behind)) :: back)).unlisted =
      (scanIndented { findings := { file := path } } 1 (front ++ (before ++ (other ++ behind)) :: back)).unlisted :=
    scanIndented_replace _ 1 (hides.indentedCode_eq fits line newLine) indent
  have findings : (findingsOf path .indent (Text.lines first.toList)).unlisted =
      (findingsOf path .indent (Text.lines second.toList)).unlisted := by
    rw [reads, rereads, List.append_assoc, List.append_assoc before]
    exact congrArg IndentedScan.findings replaced
  calc (ofText path first .indent).unlisted
    _ = (findingsOf path .indent (Text.lines first.toList)).unlisted.finish.unlisted := finish_unlisted _
    _ = (findingsOf path .indent (Text.lines second.toList)).unlisted.finish.unlisted := by rw [findings]
    _ = (ofText path second .indent).unlisted := (finish_unlisted _).symm

/-- On the last line of a long literal, in front of a call and a comment, a condition with a call is not code. -/
theorem ofText_hidden_long :
    let front := ["def f():".toList, "  s = '''it".toList, "  # \"g()".toList]
    let text := "  ".toList
    let other := "if y: g(".toList
    let behind := "''' + h('a')  # if x".toList
    let first := "def f():\n  s = '''it\n  # \"g()\n  ''' + h('a')  # if x\n"
    let second := "def f():\n  s = '''it\n  # \"g()\nif y: g(''' + h('a')  # if x\n"
    Text.lines first.toList = front ++ ([] ++ text ++ behind) :: [] ∧
      Text.lines second.toList = front ++ ([] ++ other ++ behind) :: [] ∧
      Hides ((Quoting.behind front).after []) text behind ∧
      ((Quoting.behind front).after [] = .comment ∨ other ≠ [] ∧ Plain other) ∧
      (ofText "a.py" first .indent).unlisted = (ofText "a.py" second .indent).unlisted := by
  intro front text other behind first second
  have reads : Text.lines first.toList = front ++ ([] ++ text ++ behind) :: [] := by decide +kernel
  have rereads : Text.lines second.toList = front ++ ([] ++ other ++ behind) :: [] := by decide +kernel
  have mode : (Quoting.behind front).after [] = .long .single 0 := by decide +kernel
  have hides : Hides ((Quoting.behind front).after []) text behind := by
    rw [mode]
    have first : Text.cutAt LongQuote.single.text (text ++ (LongQuote.single.text ++ " + h('a')  # if x".toList)) =
        some (text, " + h('a')  # if x".toList) := by decide +kernel
    exact Hides.ends first
  have plain : Plain other := by decide +kernel
  have fits : (Quoting.behind front).after [] = .comment ∨ other ≠ [] ∧ Plain other :=
    Or.inr ⟨by decide +kernel, plain⟩
  exact ⟨reads, rereads, hides, fits, ofText_hidden "a.py" reads rereads hides fits⟩

end FlowAtlas.Extraction
