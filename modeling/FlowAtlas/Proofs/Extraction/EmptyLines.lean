import FlowAtlas.Proofs.Extraction.Margins
import FlowAtlas.Proofs.Extraction.Moved
import FlowAtlas.Proofs.Extraction.PublicNames

namespace FlowAtlas.Extraction

def BracedScan.moved (count : Nat) (scan : BracedScan) : BracedScan :=
  { scan with findings := scan.findings.moved count }

def IndentedScan.moved (count : Nat) (scan : IndentedScan) : IndentedScan :=
  { scan with findings := scan.findings.moved count }

theorem later_openingsFrom {σ : Type} (declared : σ → Nat → List Char → Option (Declaration × List Char))
    (next : σ → List Char → σ) (state : σ) (number : Nat) (lines : List (List Char)) :
    ∀ opening ∈ openingsFrom declared next state number lines, opening.line < number + lines.length :=
  fun _ member => (mem_openingsFrom declared next member).1.2

section braced

variable {openings : List Opening} {scan : BracedScan}

theorem stepImports_moved (scan : BracedScan) (raw : List Char) (line count : Nat) :
    (scan.stepImports raw line).moved count = (scan.moved count).stepImports raw (movedNumber count line) := by
  rw [BracedScan.stepImports, BracedScan.stepImports]
  split
  · rfl
  · split
    · exact congrArg (fun findings => { scan with findings }) (addImports_moved count scan.findings line _)
    · rfl

theorem stepCode_moved (braces : Braces) (opened : Opened openings scan.findings) {line : Nat}
    (later : ∀ opening ∈ openings, opening.line < line) (code raw : List Char) (count : Nat) :
    (scan.stepCode braces code raw line).moved count =
      (scan.moved count).stepCode braces code raw (movedNumber count line) := by
  have noted : Opened openings
      (braces.noteImports (scan.findings.dropWaiting scan.previous code) (Text.trim raw) line) :=
    noteImports_opened (dropWaiting_opened opened _ _) _ _
  have named : ∀ declaration behind, braces.declaration? code = some (declaration, behind) → declaration.Named :=
    fun _ _ found => braced_named found
  have findings : (scan.stepCode braces code raw line).findings.moved count =
      ((scan.moved count).stepCode braces code raw (movedNumber count line)).findings := by
    refine (closeEnded_moved count _ line code _).trans ?_
    rw [recordLine_moved, declareIf_moved noted named later, noteImports_moved, dropWaiting_moved]
    rfl
  rw [BracedScan.moved, findings]
  rfl

theorem braced_step_moved (braces : Braces) (opened : Opened openings scan.findings) {line : Nat}
    (later : ∀ opening ∈ openings, opening.line < line) (raw : List Char) (count : Nat) :
    (scan.step braces raw line).moved count = (scan.moved count).step braces raw (movedNumber count line) := by
  let commented := { scan with inComment := (bracedCode scan.inComment raw).2 }
  have before : Opened openings commented.findings := opened
  have coded : ∀ code, (commented.stepCode braces code raw line).moved count =
      (commented.moved count).stepCode braces code raw (movedNumber count line) :=
    fun code => stepCode_moved braces before later code raw count
  rw [step_eq, step_eq]
  dsimp only
  have imports : (scan.moved count).inImports = scan.inImports := rfl
  rw [imports]
  split
  · exact stepImports_moved commented _ line count
  · split
    · rfl
    · have comment : (scan.moved count).inComment = scan.inComment := rfl
      rw [comment]
      split
      · rfl
      · exact coded _

theorem scanBraced_moved (braces : Braces) (count : Nat) (lines : List (List Char)) :
    ∀ {openings : List Opening} {scan : BracedScan} {line other : Nat}, Opened openings scan.findings →
      (∀ opening ∈ openings, opening.line < line) →
      (∀ place < lines.length, movedNumber count (line + place) = other + place) →
        (scanBraced braces scan line lines).moved count = scanBraced braces (scan.moved count) other lines := by
  induction lines with
  | nil => exact fun _ _ _ => rfl
  | cons raw rest ih =>
      intro openings scan line other opened later numbers
      have here : movedNumber count line = other := numbers 0 (Nat.zero_lt_succ _)
      have step := braced_step_moved braces opened later raw count
      rw [here] at step
      rw [scanBraced, scanBraced, ← step]
      apply ih (braced_step_openings braces opened later raw) (later_append later _)
      intro place bound
      have moved := numbers (place + 1) (Nat.succ_lt_succ bound)
      rwa [Nat.add_comm place, ← Nat.add_assoc, ← Nat.add_assoc] at moved

end braced

section indented

variable {openings : List Opening} {scan : IndentedScan}

theorem noteStatement_moved {findings : Findings} (opened : Opened openings findings) {line : Nat}
    (later : ∀ opening ∈ openings, opening.line < line) (code : List Char) (indent count : Nat) :
    (IndentedScan.noteStatement findings code line indent).1.moved count =
      (IndentedScan.noteStatement (findings.moved count) code (movedNumber count line) indent).1 := by
  have closed : Opened openings ((findings.closeFrom indent).addImports line (Indent.importTargets code)) :=
    opened.alike rfl rfl rfl fun scope member => ⟨scope, (List.dropWhile_sublist _).subset member, rfl⟩
  refine (declareIf_moved closed (fun _ _ found => indented_named found) later indent count).trans ?_
  rw [addImports_moved, closeFrom_moved]
  rfl

theorem indented_stepCode_moved (opened : Opened openings scan.findings) {line : Nat}
    (later : ∀ opening ∈ openings, opening.line < line) (inside : Bool) (code raw : List Char) (count : Nat) :
    (scan.stepCode inside code raw line).moved count =
      (scan.moved count).stepCode inside code raw (movedNumber count line) := by
  have findings : (scan.stepCode inside code raw line).findings.moved count =
      ((scan.moved count).stepCode inside code raw (movedNumber count line)).findings := by
    have begins : (scan.moved count).beginsStatement inside = scan.beginsStatement inside := rfl
    rw [indented_stepCode_eq, indented_stepCode_eq, begins]
    dsimp only
    rw [recordLine_moved]
    split
    · rw [noteStatement_moved opened later]
      rfl
    · rfl
  rw [IndentedScan.moved, findings]
  rfl

theorem notePublic_moved (scan : IndentedScan) (inside : Bool) (raw : List Char) (count : Nat) :
    (scan.notePublic inside raw).moved count = (scan.moved count).notePublic inside raw := by
  rw [IndentedScan.notePublic, IndentedScan.notePublic]
  split <;> rename_i collects
  · exact (if_pos collects).symm
  · exact (if_neg collects).symm

theorem notePublic_opened (opened : Opened openings scan.findings) (inside : Bool) (raw : List Char) :
    Opened openings (scan.notePublic inside raw).findings := by
  rw [IndentedScan.notePublic]
  split
  · exact opened.alike rfl rfl rfl fun scope member => ⟨scope, member, rfl⟩
  · exact opened

theorem indented_step_moved (opened : Opened openings scan.findings) {line : Nat}
    (later : ∀ opening ∈ openings, opening.line < line) (raw : List Char) (count : Nat) :
    (scan.step raw line).moved count = (scan.moved count).step raw (movedNumber count line) := by
  let read := { scan with opened := (indentedCode scan.opened raw).2 }
  have noted : (read.notePublic scan.opened.isSome (Text.trim raw)).moved count =
      (read.moved count).notePublic scan.opened.isSome (Text.trim raw) := notePublic_moved read _ _ count
  have before : Opened openings read.findings := opened
  have kept := notePublic_opened before scan.opened.isSome (Text.trim raw)
  have same : (scan.moved count).opened = scan.opened := rfl
  rw [indented_step_eq, indented_step_eq]
  dsimp only
  rw [same]
  split
  · exact noted
  · refine (indented_stepCode_moved kept later _ _ raw count).trans ?_
    rw [noted]
    rfl

theorem scanIndented_moved (count : Nat) (lines : List (List Char)) :
    ∀ {openings : List Opening} {scan : IndentedScan} {line other : Nat}, Opened openings scan.findings →
      (∀ opening ∈ openings, opening.line < line) →
      (∀ place < lines.length, movedNumber count (line + place) = other + place) →
        (scanIndented scan line lines).moved count = scanIndented (scan.moved count) other lines := by
  induction lines with
  | nil => exact fun _ _ _ => rfl
  | cons raw rest ih =>
      intro openings scan line other opened later numbers
      have here : movedNumber count line = other := numbers 0 (Nat.zero_lt_succ _)
      have step := indented_step_moved opened later raw count
      rw [here] at step
      rw [scanIndented, scanIndented, ← step]
      apply ih (indented_step_openings opened later raw) (later_append later _)
      intro place bound
      have moved := numbers (place + 1) (Nat.succ_lt_succ bound)
      rwa [Nat.add_comm place, ← Nat.add_assoc, ← Nat.add_assoc] at moved

def IndentedScan.Noted (scan : IndentedScan) : Prop :=
  scan.inPublicList = true → scan.findings.publicNames.isSome = true

theorem step_noted (noted : scan.Noted) (raw : List Char) (line : Nat) : (scan.step raw line).Noted := by
  have step := step_public scan raw line
  split at step
  · rw [IndentedScan.Noted, (Prod.mk.inj step).1]
    exact fun _ => rfl
  · rw [IndentedScan.Noted, (Prod.mk.inj step).1, (Prod.mk.inj step).2]
    exact noted

theorem scanIndented_noted (lines : List (List Char)) : ∀ {scan : IndentedScan} (line : Nat), scan.Noted →
    (scanIndented scan line lines).Noted := by
  induction lines with
  | nil => exact fun _ noted => noted
  | cons raw rest ih => exact fun line noted => ih (line + 1) (step_noted noted raw line)

theorem indented_step_nil (noted : scan.Noted) (line : Nat) : scan.step [] line = scan := by
  have quoted : Indent.quotedNames [] = [] := by decide
  have unlisted : Indent.publicList.occursIn [] = false := by decide
  have step : scan.step [] line = scan.notePublic scan.opened.isSome [] := rfl
  rw [step, IndentedScan.notePublic, unlisted, Bool.and_false, Bool.or_false]
  split
  · rename_i goesOn
    obtain ⟨names, held⟩ := Option.isSome_iff_exists.mp (noted goesOn)
    have kept : scan.findings.addPublic (Indent.quotedNames []) = scan.findings := by
      rw [quoted, Findings.addPublic, List.append_nil, held, Option.getD_some, ← held]
    rw [kept]
    exact congrArg (fun inPublicList => { scan with inPublicList }) goesOn.symm
  · rfl

end indented

section files

variable (path : String) (front back : List (List Char))

theorem front_numbers : ∀ place < front.length, movedNumber front.length (1 + place) = 1 + place :=
  fun _ bound => if_pos (by omega)

theorem back_numbers : ∀ place < back.length,
    movedNumber front.length (1 + front.length + place) = 1 + front.length + 1 + place := by
  intro place _
  rw [movedNumber, if_neg (by omega)]
  omega

theorem scanBraced_emptyLine (braces : Braces) :
    (scanBraced braces { findings := { file := path } } 1 (front ++ [] :: back)).findings =
      (scanBraced braces { findings := { file := path } } 1 (front ++ back)).findings.moved front.length := by
  let start : BracedScan := { findings := { file := path } }
  let reached := scanBraced braces start 1 front
  have unmoved : reached.moved front.length = reached :=
    scanBraced_moved braces front.length front (opened_nil path) (by simp) (front_numbers front)
  have opened := scanBraced_openings braces front [] start 1 (opened_nil path) (by simp)
  have moved := scanBraced_moved braces front.length back opened (later_openingsFrom _ _ _ 1 front)
    (back_numbers front back)
  rw [scanBraced_append, scanBraced_append, scanBraced, step_nil]
  exact (congrArg BracedScan.findings (moved.trans (by rw [unmoved]))).symm

theorem scanIndented_emptyLine :
    (scanIndented { findings := { file := path } } 1 (front ++ [] :: back)).findings =
      (scanIndented { findings := { file := path } } 1 (front ++ back)).findings.moved front.length := by
  let start : IndentedScan := { findings := { file := path } }
  let reached := scanIndented start 1 front
  have unmoved : reached.moved front.length = reached :=
    scanIndented_moved front.length front (opened_nil path) (by simp) (front_numbers front)
  have opened := scanIndented_openings front [] start 1 (opened_nil path) (by simp)
  have moved := scanIndented_moved front.length back opened (later_openingsFrom _ _ _ 1 front)
    (back_numbers front back)
  have noted : reached.Noted := scanIndented_noted front 1 nofun
  rw [scanIndented_append, scanIndented_append, scanIndented, indented_step_nil noted]
  exact (congrArg IndentedScan.findings (moved.trans (by rw [unmoved]))).symm

theorem findingsOf_emptyLine (dialect : Dialect) :
    findingsOf path dialect (front ++ [] :: back) = (findingsOf path dialect (front ++ back)).moved front.length := by
  cases dialect with
  | brace => exact scanBraced_emptyLine path front back .literal
  | generic => exact scanBraced_emptyLine path front back .typed
  | indent => exact scanIndented_emptyLine path front back

/-- With an empty line among its lines a text is found to hold what it holds without, with the numbers of the lines
behind moved by one, in the ids as well. -/
theorem ofText_emptyLine (dialect : Dialect) {first second : String} {front back : List (List Char)}
    (reads : Text.lines first.toList = front ++ back) (rereads : Text.lines second.toList = front ++ [] :: back) :
    ofText path second dialect = (ofText path first dialect).moved front.length path := by
  have moved := finish_moved front.length (findingsOf path dialect (front ++ back))
  rw [findingsOf_file] at moved
  rw [ofText, ofText, reads, rereads, findingsOf_emptyLine, moved]

theorem ofText_emptyLine_literal :
    let first := "def f():\n    g(\"\"\"a\nb\"\"\")\ndef f():\n    if a: h()\n"
    let second := "def f():\n    g(\"\"\"a\n\nb\"\"\")\ndef f():\n    if a: h()\n"
    ofText "a.py" second .indent = (ofText "a.py" first .indent).moved 2 "a.py" ∧
      (ofText "a.py" first .indent).decisions.map (·.owner) = [some "a.py:f#4"] ∧
      (ofText "a.py" second .indent).decisions.map (·.owner) = [some "a.py:f#5"] := by
  intro first second
  let front := ["def f():".toList, "    g(\"\"\"a".toList]
  let back := ["b\"\"\")".toList, "def f():".toList, "    if a: h()".toList]
  have reads : Text.lines first.toList = front ++ back := by decide +kernel
  have rereads : Text.lines second.toList = front ++ [] :: back := by decide +kernel
  exact ⟨ofText_emptyLine "a.py" .indent reads rereads, by decide +kernel, by decide +kernel⟩

end files

end FlowAtlas.Extraction
