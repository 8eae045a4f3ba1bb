import FlowAtlas.Proofs.Extraction.Comments
import FlowAtlas.Proofs.Extraction.Outlines
import FlowAtlas.Proofs.Extraction.Trailing

namespace FlowAtlas.Extraction

/-- A line that declares something is cut in two in front of the brace that its code ends with, and the first part
still declares the same. -/
structure BraceMoved (braces : Braces) (scan : BracedScan) (raw head tail gap behind : List Char)
    (declaration : Declaration) : Prop where
  declared : (scan.blocks braces).declared? braces raw = some (declaration, behind ++ (gap ++ ['\x7b']))
  redeclared : (scan.blocks braces).declared? braces head = some (declaration, behind)
  code : scan.codeOf raw = scan.codeOf head ++ (gap ++ ['\x7b'])
  blank : ∀ c ∈ gap, Text.isBlank c = true
  brace : Text.trim (bracedCode (bracedCode scan.inComment head).2 tail).1 = ['\x7b']
  comment : (bracedCode (bracedCode scan.inComment head).2 tail).2 = (bracedCode scan.inComment raw).2

def StaysOpen (code : List Char) (depth : Nat) : Prop :=
  '\x7b' ∉ code ∧ Text.endsWith code ";" = false ∧ code.count '\x7d' ≤ depth ∨ code.count '\x7d' < code.count '\x7b'

instance (code : List Char) (depth : Nat) : Decidable (StaysOpen code depth) := inferInstanceAs (Decidable (_ ∨ _))

theorem declared_code {braces : Braces} {scan : BracedScan} {raw : List Char} {pair : Declaration × List Char}
    (declared : (scan.blocks braces).declared? braces raw = some pair) :
    braces.declaration? (scan.codeOf raw) = some pair := by
  rw [Blocks.declared?] at declared
  split at declared
  · cases declared
  · exact declared

theorem brace_declares_nothing (braces : Braces) : braces.declaration? ['\x7b'] = none := by
  cases braces <;> decide

theorem trim_last (s : List Char) : ∀ c, (Text.trim s).getLast? = some c → Text.isBlank c = false := by
  intro c last
  rw [Text.trim, Text.trimEnd, List.getLast?_reverse] at last
  have first := List.head?_dropWhile_not Text.isBlank (Text.trimStart s).reverse
  rw [last] at first
  exact first

theorem endsWith_concat {s : List Char} {c : Char} {stop : String} (given : stop.toList ≠ [])
    (ends : Text.endsWith (s ++ [c]) stop = true) : stop.toList.getLast? = some c := by
  rcases List.suffix_concat_iff.mp (List.isSuffixOf_iff_suffix.mp ends) with empty | ⟨front, same, _⟩
  · exact absurd empty given
  · rw [same, List.getLast?_concat]

namespace BraceMoved

variable {braces : Braces} {scan : BracedScan} {raw head tail gap behind : List Char} {declaration : Declaration}
  (moved : BraceMoved braces scan raw head tail gap behind declaration)

include moved

theorem trailing : ∀ c ∈ gap ++ ['\x7b'], IsTrailing c := by
  intro c member
  rcases List.mem_append.mp member with blank | brace
  · exact Or.inl (moved.blank c blank)
  · exact Or.inr (List.mem_singleton.mp brace)

theorem head_declares : braces.declaration? (scan.codeOf head) = some (declaration, behind) :=
  declared_code moved.redeclared

theorem not_keyword {word : List Char} (silent : braces.declaration? word = none) : scan.codeOf head ≠ word := by
  intro same
  have declares := moved.head_declares
  rw [same, silent] at declares
  cases declares

theorem starts : Text.startsWith (scan.codeOf raw) "\x7b" = Text.startsWith (scan.codeOf head) "\x7b" := by
  obtain ⟨c, rest, same⟩ := List.exists_cons_of_ne_nil (moved.not_keyword (declares_nothing braces))
  rw [moved.code, same]
  simp [Text.startsWith, List.isPrefixOf]

theorem sameLine (unasked : Text.endsWith (scan.codeOf head) "?" = false) :
    SameLine braces (scan.codeOf raw) (scan.codeOf head) := by
  have unmatched : scan.codeOf head ≠ "match".toList := moved.not_keyword (by cases braces <;> decide)
  have unlooped : scan.codeOf head ≠ "loop".toList := moved.not_keyword (by cases braces <;> decide)
  have unasked : (scan.codeOf head).getLast? ≠ some '?' := by
    intro last
    obtain ⟨front, same⟩ := List.getLast?_eq_some_iff.mp last
    rw [same] at unasked
    exact absurd (List.isSuffixOf_iff_suffix.mpr ⟨front, rfl⟩) (Bool.eq_false_iff.mp unasked)
  have declares := declared_code moved.declared
  refine ⟨?_, ?_, ?_, moved.starts⟩
  · rw [declares, moved.head_declares]
    rfl
  · rw [declares, moved.head_declares]
    exact calledNames_append moved.trailing behind
  · rw [moved.code]
    exact kindOf_append moved.trailing (trim_last _) unasked unmatched unlooped

theorem count_eq {c : Char} (solid : Text.isBlank c = false) :
    (scan.codeOf raw).count c = (scan.codeOf head).count c + List.count c ['\x7b'] := by
  have none : gap.count c = 0 := by
    refine List.count_eq_zero.mpr fun member => ?_
    rw [moved.blank c member] at solid
    cases solid
  rw [moved.code, List.count_append, List.count_append, none, Nat.zero_add]

theorem count_opens : (scan.codeOf raw).count '\x7b' = (scan.codeOf head).count '\x7b' + 1 :=
  moved.count_eq (by decide)

theorem count_closes : (scan.codeOf raw).count '\x7d' = (scan.codeOf head).count '\x7d' :=
  moved.count_eq (by decide)

theorem entered_eq (line : Nat) : ∃ kind,
    scan.entered braces (scan.codeOf raw) line = { kind, line, depth := scan.depth } ::
        (scan.findings.dropWaiting scan.previous (scan.codeOf head)).scopes ∧
      scan.entered braces (scan.codeOf head) line = { kind, line, depth := scan.depth } ::
        (scan.findings.dropWaiting scan.previous (scan.codeOf head)).scopes := by
  let kept := scan.findings.dropWaiting scan.previous (scan.codeOf head)
  have waits : scan.findings.dropWaiting scan.previous (scan.codeOf raw) = kept := by
    rw [Findings.dropWaiting, stillWaiting, moved.starts]
    rfl
  obtain ⟨kind, opened⟩ : ∃ kind, (kept.declare declaration line scan.depth).scopes =
      { kind, line, depth := scan.depth } :: kept.scopes := by
    cases declaration <;> exact ⟨_, rfl⟩
  refine ⟨kind, ?_, ?_⟩
  · rw [BracedScan.entered, declared_code moved.declared, waits]
    exact opened
  · rw [BracedScan.entered, moved.head_declares]
    exact opened

theorem raw_not_stopped : Text.endsWith (scan.codeOf raw) ";" = false := by
  rw [moved.code, ← List.append_assoc, Bool.eq_false_iff]
  exact fun ends => absurd (endsWith_concat (by decide) ends) (by decide)

theorem raw_settles : continuations.any (Text.endsWith (scan.codeOf raw)) = false := by
  have others : ∀ stop ∈ continuations, stop.toList ≠ [] ∧ stop.toList.getLast? ≠ some '\x7b' := by decide
  rw [moved.code, ← List.append_assoc, List.any_eq_false]
  intro stop among ends
  exact (others stop among).2 (endsWith_concat (others stop among).1 ends)

variable (line : Nat)

theorem reads_raw : BracedScan.Reads braces raw line scan (scan.step braces raw line) :=
  BracedScan.step_reads (Blocks.skips_of_declared moved.declared) line

theorem reads_head : BracedScan.Reads braces head line scan (scan.step braces head line) :=
  BracedScan.step_reads (Blocks.skips_of_declared moved.redeclared) line

theorem codeOf_tail : (scan.step braces head line).codeOf tail = ['\x7b'] := by
  rw [BracedScan.codeOf, step_inComment, moved.brace]

theorem opens_tail : (braces.marks tail).opensImports = false := by
  have inside : '\x7b' ∈ Text.trim (bracedCode (bracedCode scan.inComment head).2 tail).1 := by
    rw [moved.brace]
    exact List.mem_cons_self
  exact opensImports_of_mem (by decide) (by decide) (mem_bracedCode (by decide) ((trim_sublist _).subset inside)) braces

theorem skips_tail : ((scan.step braces head line).blocks braces).skips braces tail = false := by
  have imports : ((scan.step braces head line).blocks braces).imports = false := by
    rw [step_blocks]
    exact Blocks.outside_of_reads (Blocks.skips_of_declared moved.redeclared)
  have given : ((scan.step braces head line).codeOf tail).isEmpty = false := by
    rw [moved.codeOf_tail]
    rfl
  rw [Blocks.skips, imports, moved.opens_tail]
  exact given

theorem reads_tail : BracedScan.Reads braces tail (line + 1) (scan.step braces head line)
    ((scan.step braces head line).step braces tail (line + 1)) := BracedScan.step_reads (moved.skips_tail line) _

theorem blocks_eq : (scan.step braces raw line).blocks braces =
    ((scan.step braces head line).step braces tail (line + 1)).blocks braces := by
  have imports := Blocks.outside_of_reads (Blocks.skips_of_declared moved.declared)
  have again := Blocks.outside_of_reads (moved.skips_tail line)
  rw [step_blocks] at again
  rw [step_blocks, step_blocks, step_blocks]
  exact congrArg₂ Blocks.mk moved.comment.symm (imports.trans again.symm)

theorem tail_outlines :
    ((scan.step braces head line).step braces tail (line + 1)).findings.routines.map Routine.outline =
      (scan.step braces head line).findings.routines.map Routine.outline := by
  rw [(moved.reads_tail line).routines, moved.codeOf_tail]
  exact BracedScan.recorded_silent (brace_declares_nothing braces) (by decide) (by decide) tail (line + 1)

/-- Braces of the parameters are taken for the body: if those in front of the body are balanced, a declaration whose
body begins on the next line is closed on its own, where it is open if the body begins there. -/
theorem closed_on_line (early : ∀ scope ∈ scan.findings.scopes, scope.line < line) (given : '\x7b' ∈ scan.codeOf head)
    (balanced : (scan.codeOf head).count '\x7d' = (scan.codeOf head).count '\x7b') :
    (∃ scope ∈ (scan.step braces raw line).findings.scopes, scope.line = line) ∧
      ∀ scope ∈ (scan.step braces head line).findings.scopes, scope.line < line := by
  obtain ⟨kind, whole, entered⟩ := moved.entered_eq line
  have opens : 0 < (scan.codeOf head).count '\x7b' := List.count_pos_iff.mpr given
  constructor
  · have depth := (moved.reads_raw line).depth
    rw [moved.count_opens, moved.count_closes, balanced] at depth
    refine ⟨{ kind, line, depth := scan.depth, started := true }, ?_, rfl⟩
    rw [(moved.reads_raw line).scopes, whole, moved.count_opens, startBody, if_pos (Nat.succ_pos _),
      List.dropWhile_cons_of_neg]
    · exact List.mem_cons_self
    · simp only [Scope.endsAt, if_true, decide_eq_true_eq]
      omega
  · have depth := (moved.reads_head line).depth
    rw [balanced, Nat.add_sub_cancel] at depth
    intro scope member
    rw [(moved.reads_head line).scopes, entered, startBody, if_pos opens, List.dropWhile_cons_of_pos] at member
    · exact early scope ((dropWaiting_scopes _ _ _).subset ((List.dropWhile_sublist _).subset member))
    · simp [Scope.endsAt, depth]

variable (stays : StaysOpen (scan.codeOf head) scan.depth)

include stays

theorem depth_eq : (scan.step braces raw line).depth =
    ((scan.step braces head line).step braces tail (line + 1)).depth := by
  have opens : List.count '\x7b' ['\x7b'] = 1 := rfl
  have closes : List.count '\x7d' ['\x7b'] = 0 := rfl
  rw [(moved.reads_raw line).depth, (moved.reads_tail line).depth, moved.codeOf_tail, (moved.reads_head line).depth,
    moved.count_opens, moved.count_closes, opens, closes]
  rcases stays with ⟨_, _, within⟩ | more <;> omega

theorem head_scopes : (scan.step braces head line).findings.scopes =
    startBody ((scan.codeOf head).count '\x7b') (scan.entered braces (scan.codeOf head) line) := by
  obtain ⟨kind, _, entered⟩ := moved.entered_eq line
  have depth := (moved.reads_head line).depth
  rw [(moved.reads_head line).scopes, entered]
  refine List.dropWhile_cons_of_neg ?_
  rcases stays with ⟨plain, unstopped, _⟩ | more
  · rw [List.count_eq_zero.mpr plain]
    simp [Scope.endsAt, unstopped]
  · have opened : 0 < (scan.codeOf head).count '\x7b' := by omega
    rw [if_pos opened]
    simp only [Scope.endsAt, if_true, decide_eq_true_eq]
    omega

theorem scopes_eq : (scan.step braces raw line).findings.scopes =
    ((scan.step braces head line).step braces tail (line + 1)).findings.scopes := by
  obtain ⟨kind, whole, entered⟩ := moved.entered_eq line
  have reentered : (scan.step braces head line).entered braces ['\x7b'] (line + 1) =
      (scan.step braces head line).findings.scopes := by
    rw [BracedScan.entered, brace_declares_nothing]
    rfl
  have ends : ∀ scope : Scope, scope.endsAt (scan.codeOf raw) line (scan.step braces raw line).depth =
      scope.endsAt ['\x7b'] (line + 1) ((scan.step braces head line).step braces tail (line + 1)).depth := by
    intro scope
    have stop : Text.endsWith ['\x7b'] ";" = false := by decide
    rw [Scope.endsAt, Scope.endsAt, moved.raw_not_stopped, stop, moved.depth_eq line stays, Bool.and_false,
      Bool.and_false]
  have started : startBody ((scan.codeOf raw).count '\x7b') (scan.entered braces (scan.codeOf raw) line) =
      startBody 1 (startBody ((scan.codeOf head).count '\x7b') (scan.entered braces (scan.codeOf head) line)) := by
    rw [whole, entered, moved.count_opens]
    by_cases opened : 0 < (scan.codeOf head).count '\x7b' <;> simp [startBody, opened]
  rw [(moved.reads_raw line).scopes, (moved.reads_tail line).scopes, moved.codeOf_tail, reentered,
    moved.head_scopes line stays, started]
  exact congrArg (List.dropWhile · _) (funext ends)

variable (unasked : Text.endsWith (scan.codeOf head) "?" = false)
  (early : ∀ scope ∈ scan.findings.scopes, scope.line < line)

include unasked early

theorem parallel : BracedScan.Parallel braces (line + 1) (line + 2) (scan.step braces raw line)
    ((scan.step braces head line).step braces tail (line + 1)) := by
  have before := BracedScan.step_lines braces early raw
  have later := BracedScan.step_lines braces (BracedScan.step_lines braces early head) tail
  have recorded := (BracedScan.Parallel.refl braces early).recorded (moved.sameLine unasked) raw head
  have routines : (scan.step braces raw line).findings.routines.map Routine.outline =
      ((scan.step braces head line).step braces tail (line + 1)).findings.routines.map Routine.outline := by
    rw [moved.tail_outlines line, (moved.reads_raw line).routines, (moved.reads_head line).routines]
    exact recorded.routines
  have findings : (scan.step braces raw line).findings.Parallel line line
      ((scan.step braces head line).step braces tail (line + 1)).findings :=
    ⟨routines, congrArg (List.map _) (moved.scopes_eq line stays)⟩
  refine ⟨findings.next before later, moved.blocks_eq line, moved.depth_eq line stays, ?_, before, later⟩
  rw [(moved.reads_raw line).previous, (moved.reads_tail line).previous, moved.raw_settles, moved.codeOf_tail]
  decide

end BraceMoved

/-- It makes no difference whether the brace of a body ends the line of its declaration or stands on a line of its own
behind it, if the line without the brace is still the declaration, keeps it open, and does not end in a question mark.
The routines are the same and in the same order. -/
theorem ofText_brace_moved (braces : Braces) (path : String) {first second : String} {front back : List (List Char)}
    {raw head tail gap behind : List Char} {declaration : Declaration} {scan : BracedScan}
    (reached : scan = scanBraced braces { findings := { file := path } } 1 front)
    (reads : Text.lines first.toList = front ++ raw :: back)
    (rereads : Text.lines second.toList = front ++ head :: tail :: back)
    (moved : BraceMoved braces scan raw head tail gap behind declaration)
    (stays : StaysOpen (scan.codeOf head) scan.depth) (unasked : Text.endsWith (scan.codeOf head) "?" = false) :
    SameRoutines (ofText path first braces.dialect).routines (ofText path second braces.dialect).routines := by
  have early : ∀ scope ∈ scan.findings.scopes, scope.line < 1 + front.length := by
    intro scope member
    rw [reached, ← bracedAfter_beyond braces path (Nat.le_refl _)] at member
    have bound := scope_line_le (Nat.le_refl _) scope member
    omega
  have findings : ∀ lines, findingsOf path braces.dialect lines =
      (scanBraced braces { findings := { file := path } } 1 lines).findings := by
    intro lines
    cases braces <;> rfl
  have outlines := ((moved.parallel (1 + front.length) stays unasked early).scanBraced back).findings.routines
  refine Findings.finish_sameRoutines ?_ (findingsOf_openings path braces.dialect _).ided
    (findingsOf_openings path braces.dialect _).ided ?_
  · rw [findingsOf_file, findingsOf_file]
  · rw [reads, rereads, findings, findings, scanBraced_append, scanBraced_append, ← reached]
    exact outlines.symm

theorem ofText_brace_moved_overloads :
    SameRoutines
      (ofText "A.java"
        "class A \x7b\n  void f(int a) \x7b\n    g(a);\n  \x7d\n  void f(int b) \x7b\n    if (b) h();\n  \x7d\n\x7d"
        .generic).routines
      (ofText "A.java"
        "class A \x7b\n  void f(int a)\n  \x7b\n    g(a);\n  \x7d\n  void f(int b) \x7b\n    if (b) h();\n  \x7d\n\x7d"
        .generic).routines := by
  let first := "class A \x7b\n  void f(int a) \x7b\n    g(a);\n  \x7d\n  void f(int b) \x7b\n    if (b) h();\n  \x7d\n\x7d"
  let second :=
    "class A \x7b\n  void f(int a)\n  \x7b\n    g(a);\n  \x7d\n  void f(int b) \x7b\n    if (b) h();\n  \x7d\n\x7d"
  let front := ["class A \x7b".toList]
  let back := ["    g(a);", "  \x7d", "  void f(int b) \x7b", "    if (b) h();", "  \x7d", "\x7d"].map String.toList
  let raw := "  void f(int a) \x7b".toList
  let head := "  void f(int a)".toList
  let tail := "  \x7b".toList
  let scan := scanBraced .typed { findings := { file := "A.java" } } 1 front
  have reads : Text.lines first.toList = front ++ raw :: back := by decide +kernel
  have rereads : Text.lines second.toList = front ++ head :: tail :: back := by decide +kernel
  have moved : BraceMoved .typed scan raw head tail [' '] "(int a)".toList
      (.routine "f" .function false false none) := by
    have blank : ∀ c ∈ [' '], Text.isBlank c = true := List.forall_mem_singleton.mpr rfl
    exact ⟨by decide +kernel, by decide +kernel, by decide +kernel, blank, by decide +kernel, by decide +kernel⟩
  have stays : StaysOpen (scan.codeOf head) scan.depth := by decide +kernel
  exact ofText_brace_moved .typed "A.java" rfl reads rereads moved stays (by decide +kernel)

end FlowAtlas.Extraction
