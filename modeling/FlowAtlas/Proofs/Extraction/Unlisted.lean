import FlowAtlas.Proofs.Extraction.Unquoted

namespace FlowAtlas

def Routine.unlisted (routine : Routine) : Routine := { routine.unquoted with exported := false }

/-- Everything found but the snippets, and which routines are exported. -/
def Extraction.unlisted (found : Extraction) : Extraction :=
  { found with
    routines := found.routines.map Routine.unlisted
    decisions := found.decisions.map Decision.unquoted }

namespace Extraction

def Findings.listing (findings : Findings) (imports : List ImportRef) (publicNames : Option (List String)) : Findings :=
  { findings with imports, publicNames }

def Findings.unlisted (findings : Findings) : Findings := findings.unquoted.listing findings.imports none

def IndentedScan.unlisted (scan : IndentedScan) : IndentedScan :=
  { scan with findings := scan.findings.unlisted, inPublicList := false }

section findings

theorem finish_unlisted (findings : Findings) : findings.finish.unlisted = findings.unlisted.finish.unlisted := by
  have routines : findings.finish.unlisted.routines = findings.unlisted.finish.unlisted.routines := by
    change (findings.routines.map _).map _ = ((findings.routines.map _).map _).map _
    rw [List.map_map, List.map_map, List.map_map]
    refine List.map_congr_left fun routine _ => ?_
    simp only [Function.comp_apply, Routine.unlisted, Routine.unquoted, List.map_map]
    rfl
  have decisions : findings.finish.unlisted.decisions = findings.unlisted.finish.unlisted.decisions := by
    have held : ∀ findings : Findings, findings.finish.unlisted.decisions =
        findings.finish.unlisted.routines.flatMap (·.decisions) := by
      intro findings
      change (findings.finish.routines.flatMap _).map _ = (findings.finish.routines.map _).flatMap _
      rw [List.map_flatMap, List.flatMap_map]
      rfl
    rw [held, held, routines]
  have classes : findings.finish.unlisted.classes = findings.unlisted.finish.unlisted.classes := by
    have names : ∀ (findings : Findings) (owner : String),
        (findings.finish.routines.filter fun routine => routine.owner == some owner).map (·.name) =
          (findings.finish.unlisted.routines.filter fun routine => routine.owner == some owner).map (·.name) := by
      intro findings owner
      change _ = ((findings.finish.routines.map _).filter _).map _
      rw [List.filter_map, List.map_map]
      rfl
    change findings.classes.map _ = findings.classes.map _
    refine List.map_congr_left fun opened _ => ?_
    rw [ClassDecl.mk.injEq]
    refine ⟨rfl, rfl, rfl, ?_, rfl⟩
    exact (names findings opened.name).trans (routines ▸ (names findings.unlisted opened.name).symm)
  exact Extraction.ext rfl rfl classes routines rfl decisions

section listing

variable (findings : Findings) (imports : List ImportRef) (publicNames : Option (List String))

theorem declareIf_listing (declared : Option (Declaration × List Char)) (line depth : Nat) :
    (findings.listing imports publicNames).declareIf declared line depth =
      (findings.declareIf declared line depth).listing imports publicNames := by
  cases declared with
  | none => rfl
  | some pair =>
      obtain ⟨declaration, behind⟩ := pair
      cases declaration <;> rfl

theorem recordLine_listing (code callText raw : List Char) (line : Nat) :
    (findings.listing imports publicNames).recordLine code callText raw line =
      (findings.recordLine code callText raw line).listing imports publicNames := by
  have innermost : (findings.listing imports publicNames).innermost? = findings.innermost? := rfl
  rw [Findings.recordLine, Findings.recordLine, innermost]
  cases findings.innermost? <;> rfl

end listing

theorem declareIf_unlisted (findings : Findings) (declared : Option (Declaration × List Char)) (line depth : Nat) :
    (findings.declareIf declared line depth).unlisted = findings.unlisted.declareIf declared line depth := by
  have imports := congrArg Findings.imports
    (declareIf_listing findings findings.imports findings.publicNames declared line depth)
  change (findings.declareIf declared line depth).imports = findings.imports at imports
  rw [Findings.unlisted, Findings.unlisted, declareIf_unquoted, imports, declareIf_listing]

theorem recordLine_unlisted (findings : Findings) (code callText raw : List Char) (line : Nat) :
    (findings.recordLine code callText raw line).unlisted = findings.unlisted.recordLine code callText [] line := by
  have imports := congrArg Findings.imports
    (recordLine_listing findings findings.imports findings.publicNames code callText raw line)
  change (findings.recordLine code callText raw line).imports = findings.imports at imports
  rw [Findings.unlisted, Findings.unlisted, recordLine_unquoted, imports, recordLine_listing]

theorem noteStatement_unlisted (findings : Findings) (code : List Char) (line indent : Nat) :
    (IndentedScan.noteStatement findings code line indent).1.unlisted =
      (IndentedScan.noteStatement findings.unlisted code line indent).1 :=
  declareIf_unlisted ((findings.closeFrom indent).addImports line (Indent.importTargets code)) _ line indent

end findings

section scan

def IndentedScan.stepIndented (scan : IndentedScan) (inside : Bool) (code : List Char) (indent line : Nat) :
    IndentedScan :=
  let noted := if scan.beginsStatement inside then noteStatement scan.findings code line indent
    else (scan.findings, code)
  { scan with
    findings := noted.1.recordLine code noted.2 [] line
    brackets := scan.brackets + countOf ['(', '[', '\x7b'] code - countOf [')', ']', '\x7d'] code
    continued := Text.endsWith code "\\" }

def IndentedScan.stepRead (scan : IndentedScan) (read : List Char × Option LongQuote) (indent line : Nat) :
    IndentedScan :=
  let moved := { scan with opened := read.2 }
  if (Text.trim read.1).isEmpty then moved
  else moved.stepIndented scan.opened.isSome (Text.trim read.1) indent line

theorem notePublic_unlisted (scan : IndentedScan) (inside : Bool) (raw : List Char) :
    (scan.notePublic inside raw).unlisted = scan.unlisted := by
  rw [IndentedScan.notePublic]
  split <;> rfl

theorem indented_stepCode_unlisted (scan : IndentedScan) (inside : Bool) (code raw : List Char) (line : Nat) :
    (scan.stepCode inside code raw line).unlisted =
      scan.unlisted.stepIndented inside code (Text.indentation raw) line := by
  have begins : scan.unlisted.beginsStatement inside = scan.beginsStatement inside := rfl
  rw [indented_stepCode_eq, IndentedScan.stepIndented, begins]
  cases scan.beginsStatement inside with
  | true =>
      have findings := recordLine_unlisted
        (IndentedScan.noteStatement scan.findings code line (Text.indentation raw)).1 code
        (IndentedScan.noteStatement scan.findings code line (Text.indentation raw)).2 raw line
      rw [noteStatement_unlisted] at findings
      rw [IndentedScan.unlisted]
      simp only [if_true]
      rw [findings]
      rfl
  | false =>
      rw [IndentedScan.unlisted]
      simp only [Bool.false_eq_true, if_false]
      rw [recordLine_unlisted]
      rfl

theorem indented_step_unlisted (scan : IndentedScan) (raw : List Char) (line : Nat) :
    (scan.step raw line).unlisted =
      scan.unlisted.stepRead (indentedCode scan.opened raw) (Text.indentation raw) line := by
  rw [indented_step_eq, IndentedScan.stepRead]
  dsimp only
  split
  · exact notePublic_unlisted _ _ _
  · rw [indented_stepCode_unlisted, notePublic_unlisted]
    rfl

theorem stepRead_inside {scan : IndentedScan} (inside : scan.opened.isSome) (read : List Char × Option LongQuote)
    (indent other line : Nat) : scan.stepRead read indent line = scan.stepRead read other line := by
  have begins : ∀ opened, { scan with opened }.beginsStatement true = false := by
    simp [IndentedScan.beginsStatement]
  rw [IndentedScan.stepRead, IndentedScan.stepRead, inside]
  simp only [IndentedScan.stepIndented, begins, Bool.false_eq_true, if_false]

theorem scanIndented_unlisted (lines : List (List Char)) : ∀ {first second : IndentedScan} (line : Nat),
    first.unlisted = second.unlisted →
      (scanIndented first line lines).unlisted = (scanIndented second line lines).unlisted := by
  induction lines with
  | nil => exact fun _ same => same
  | cons raw rest ih =>
      intro first second line same
      have opened : first.unlisted.opened = second.unlisted.opened := congrArg IndentedScan.opened same
      rw [scanIndented, scanIndented]
      apply ih
      rw [indented_step_unlisted, indented_step_unlisted, same,
        show first.opened = second.opened from opened]

/-- A line may be replaced by one with the same code and, unless it begins in a literal, the same indentation. -/
theorem scanIndented_replace (scan : IndentedScan) (line : Nat) {front back : List (List Char)}
    {raw other : List Char}
    (read : indentedCode (scanIndented scan line front).opened raw =
      indentedCode (scanIndented scan line front).opened other)
    (indent : (scanIndented scan line front).opened = none → Text.indentation raw = Text.indentation other) :
    (scanIndented scan line (front ++ raw :: back)).unlisted =
      (scanIndented scan line (front ++ other :: back)).unlisted := by
  rw [scanIndented_append, scanIndented_append, scanIndented, scanIndented]
  apply scanIndented_unlisted
  rw [indented_step_unlisted, indented_step_unlisted, read]
  cases opened : (scanIndented scan line front).opened with
  | none => rw [indent opened]
  | some quote =>
      apply stepRead_inside
      change (scanIndented scan line front).opened.isSome
      rw [opened]
      rfl

end scan

end Extraction

end FlowAtlas
