import FlowAtlas.Proofs.Extraction.Nesting

namespace FlowAtlas

attribute [ext] Extraction

def Decision.unquoted (decision : Decision) : Decision := { decision with snippet := "" }

def Routine.unquoted (routine : Routine) : Routine :=
  { routine with decisions := routine.decisions.map Decision.unquoted }

/-- Everything found but the imports and the snippets. -/
def Extraction.unquoted (found : Extraction) : Extraction :=
  { found with
    routines := found.routines.map Routine.unquoted
    decisions := found.decisions.map Decision.unquoted
    imports := [] }

namespace Extraction

def Findings.unquoted (findings : Findings) : Findings :=
  { findings with routines := findings.routines.map Routine.unquoted, imports := [] }

def BracedScan.unquoted (scan : BracedScan) : BracedScan := { scan with findings := scan.findings.unquoted }

/-- What is read off a line as it stands: the names in its export list, and whether a block of imports begins or
ends there. -/
structure Marks where
  listed : List String := []
  opensImports : Bool := false
  closesImports : Bool := false
  deriving DecidableEq, Repr

def Braces.marks (braces : Braces) (raw : List Char) : Marks :=
  let bare := Text.trim raw
  match braces with
  | literal => { listed := Brace.exportedNames bare }
  | typed =>
    { opensImports := bare == "import (".toList || bare == "import(".toList
      closesImports := Text.startsWith bare ")" }

section findings

theorem finish_unquoted (findings : Findings) : findings.finish.unquoted = findings.unquoted.finish := by
  have routines : findings.finish.unquoted.routines = findings.unquoted.finish.routines := by
    change (findings.routines.map _).map _ = (findings.routines.map _).map _
    rw [List.map_map, List.map_map]
    rfl
  have decisions : findings.finish.unquoted.decisions = findings.unquoted.finish.decisions := by
    have held : findings.unquoted.finish.decisions = findings.finish.unquoted.routines.flatMap (·.decisions) := by
      rw [routines]
      rfl
    rw [held]
    change (findings.finish.routines.flatMap _).map _ = (findings.finish.routines.map _).flatMap _
    rw [List.map_flatMap, List.flatMap_map]
    rfl
  have methods : ∀ owner : String,
      (findings.finish.routines.filter fun routine => routine.owner == some owner).map (·.name) =
        (findings.unquoted.finish.routines.filter fun routine => routine.owner == some owner).map (·.name) := by
    intro owner
    rw [← routines]
    change _ = ((findings.finish.routines.map _).filter _).map _
    rw [List.filter_map, List.map_map]
    rfl
  have classes : findings.finish.unquoted.classes = findings.unquoted.finish.classes := by
    change findings.classes.map _ = findings.classes.map _
    refine List.map_congr_left fun opened _ => ?_
    rw [ClassDecl.mk.injEq]
    exact ⟨rfl, rfl, rfl, methods opened.name, rfl⟩
  exact Extraction.ext rfl rfl classes routines rfl decisions

theorem noteImports_unquoted (braces : Braces) (findings : Findings) (raw : List Char) (line : Nat) :
    (braces.noteImports findings (Text.trim raw) line).unquoted =
      findings.unquoted.addExported (braces.marks raw).listed := by
  cases braces with
  | literal => rfl
  | typed => simp [Braces.noteImports, Findings.unquoted, Findings.addImports, Findings.addExported, Braces.marks]

theorem dropWaiting_unquoted (findings : Findings) (previous code : List Char) :
    (findings.dropWaiting previous code).unquoted = findings.unquoted.dropWaiting previous code := by
  rw [Findings.dropWaiting, Findings.dropWaiting]
  split <;> rfl

theorem closeEnded_unquoted (findings : Findings) (code : List Char) (line depth : Nat) :
    (findings.closeEnded code line depth).unquoted = findings.unquoted.closeEnded code line depth := rfl

theorem declareIf_unquoted (findings : Findings) (declared : Option (Declaration × List Char)) (line depth : Nat) :
    (findings.declareIf declared line depth).unquoted = findings.unquoted.declareIf declared line depth := by
  cases declared with
  | none => rfl
  | some pair =>
      obtain ⟨declaration, behind⟩ := pair
      cases declaration with
      | classBody name exported => rfl
      | routine name kind isAsync exported receiver =>
          have ids : findings.unquoted.routines.map (·.id) = findings.routines.map (·.id) := by
            simp [Findings.unquoted, Routine.unquoted]
          have fresh : ∀ owner, findings.unquoted.freshId name owner line = findings.freshId name owner line := by
            intro owner
            rw [Findings.freshId, ids]
            rfl
          have length : findings.unquoted.routines.length = findings.routines.length := List.length_map _
          change (findings.openRoutine _ _ _ _ _ _ _).unquoted = findings.unquoted.openRoutine _ _ _ _ _ _ _
          simp only [Findings.openRoutine, fresh, length]
          simp [Findings.unquoted, Findings.enclosingClass?, Routine.unquoted]

theorem decisionOf_unquoted (file owner : String) (code raw : List Char) (line : Nat) :
    (Findings.decisionOf? file owner code raw line).map Decision.unquoted =
      Findings.decisionOf? file owner code [] line := by
  rw [Findings.decisionOf?, Findings.decisionOf?, Option.map_map]
  rfl

theorem withLine_unquoted (routine : Routine) (code callText raw : List Char) (line : Nat) :
    (Findings.withLine routine code callText raw line).unquoted =
      Findings.withLine routine.unquoted code callText [] line := by
  have noted : (Findings.decisionOf? routine.file routine.id code raw line).toList.map Decision.unquoted =
      (Findings.decisionOf? routine.file routine.id code [] line).toList := by
    rw [← Option.toList_map, decisionOf_unquoted]
  have length : ∀ raw, (Findings.decisionOf? routine.file routine.id code raw line).toList.length =
      (Findings.decisionOf? routine.file routine.id code [] line).toList.length := by
    intro raw
    rw [← decisionOf_unquoted routine.file routine.id code raw line, Option.toList_map, List.length_map]
  simp only [Findings.withLine, Routine.unquoted, List.map_append, noted, List.length_append, List.length_map, length]

theorem recordLine_unquoted (findings : Findings) (code callText raw : List Char) (line : Nat) :
    (findings.recordLine code callText raw line).unquoted = findings.unquoted.recordLine code callText [] line := by
  have innermost : findings.unquoted.innermost? = findings.innermost? := rfl
  rw [Findings.recordLine, Findings.recordLine, innermost]
  cases findings.innermost? with
  | none => rfl
  | some place =>
      have routines : (findings.routines.modify place fun routine =>
            Findings.withLine routine code callText raw line).map Routine.unquoted =
          (findings.routines.map Routine.unquoted).modify place fun routine =>
            Findings.withLine routine code callText [] line :=
        map_modify (fun routine => withLine_unquoted routine code callText raw line) findings.routines place
      exact congrArg (fun routines => { findings with routines, imports := [] }) routines

end findings

section scan

def BracedScan.stepListed (braces : Braces) (scan : BracedScan) (code : List Char) (listed : List String)
    (line : Nat) : BracedScan :=
  let declared := braces.declaration? code
  let findings := (scan.findings.dropWaiting scan.previous code).addExported listed
  let findings := (findings.declareIf declared line scan.depth).recordLine code (callText declared code) [] line
  let depth := scan.depth + code.count '\x7b' - code.count '\x7d'
  { scan with findings := findings.closeEnded code line depth, depth, previous := code }

def BracedScan.stepRead (braces : Braces) (scan : BracedScan) (read : List Char × Bool) (marks : Marks) (line : Nat) :
    BracedScan :=
  let commented := { scan with inComment := read.2 }
  let code := Text.trim read.1
  if braces == .typed && scan.inImports then { commented with inImports := !marks.closesImports }
  else if marks.opensImports then { commented with inImports := true }
  else if code.isEmpty then commented
  else commented.stepListed braces code marks.listed line

theorem stepCode_unquoted (braces : Braces) (scan : BracedScan) (code raw : List Char) (line : Nat) :
    (scan.stepCode braces code raw line).unquoted =
      scan.unquoted.stepListed braces code (braces.marks raw).listed line := by
  have findings : (scan.stepCode braces code raw line).findings.unquoted = _ := closeEnded_unquoted _ _ _ _
  rw [recordLine_unquoted, declareIf_unquoted, noteImports_unquoted, dropWaiting_unquoted] at findings
  rw [BracedScan.unquoted, findings]
  rfl

theorem stepImports_unquoted (scan : BracedScan) (inside : scan.inImports = true) (raw : List Char) (line : Nat) :
    (scan.stepImports (Text.trim raw) line).unquoted =
      { scan.unquoted with inImports := !(Braces.typed.marks raw).closesImports } := by
  have closes : (Braces.typed.marks raw).closesImports = Text.startsWith (Text.trim raw) ")" := rfl
  rw [BracedScan.stepImports, closes]
  cases Text.startsWith (Text.trim raw) ")" with
  | true => rfl
  | false =>
      have same : { scan.unquoted with inImports := !false } = scan.unquoted :=
        congrArg (fun inImports => { scan.unquoted with inImports }) inside.symm
      rw [same, if_neg (by decide)]
      split <;> rfl

theorem opensImports_eq (braces : Braces) (raw : List Char) :
    (braces == .typed && (Text.trim raw == "import (".toList || Text.trim raw == "import(".toList)) =
      (braces.marks raw).opensImports := by
  cases braces with
  | literal => rfl
  | typed => exact Bool.true_and _

theorem step_unquoted (braces : Braces) (scan : BracedScan) (raw : List Char) (line : Nat) :
    (scan.step braces raw line).unquoted =
      scan.unquoted.stepRead braces (bracedCode scan.inComment raw) (braces.marks raw) line := by
  have imports : scan.unquoted.inImports = scan.inImports := rfl
  rw [step_eq, BracedScan.stepRead]
  dsimp only
  rw [opensImports_eq, imports]
  split
  · rename_i inside
    obtain ⟨typed, inside⟩ := Bool.and_eq_true_iff.mp inside
    obtain rfl := eq_of_beq typed
    let commented : BracedScan := { scan with inComment := (bracedCode scan.inComment raw).2 }
    exact stepImports_unquoted commented inside raw line
  · split
    · rfl
    · split
      · rfl
      · exact stepCode_unquoted braces _ _ raw line

theorem scanBraced_unquoted (braces : Braces) (lines : List (List Char)) : ∀ {first second : BracedScan} (line : Nat),
    first.unquoted = second.unquoted →
      (scanBraced braces first line lines).unquoted = (scanBraced braces second line lines).unquoted := by
  induction lines with
  | nil => exact fun _ same => same
  | cons raw rest ih =>
      intro first second line same
      have comment : first.unquoted.inComment = second.unquoted.inComment := congrArg BracedScan.inComment same
      rw [scanBraced, scanBraced]
      apply ih
      rw [step_unquoted, step_unquoted, same, show first.inComment = second.inComment from comment]

/-- A line may be replaced by one with the same code and the same marks. -/
theorem scanBraced_replace (braces : Braces) (scan : BracedScan) (line : Nat) {front back : List (List Char)}
    {raw other : List Char}
    (read : bracedCode (scanBraced braces scan line front).inComment raw =
      bracedCode (scanBraced braces scan line front).inComment other)
    (marks : braces.marks raw = braces.marks other) :
    (scanBraced braces scan line (front ++ raw :: back)).unquoted =
      (scanBraced braces scan line (front ++ other :: back)).unquoted := by
  rw [scanBraced_append, scanBraced_append, scanBraced, scanBraced]
  apply scanBraced_unquoted
  rw [step_unquoted, step_unquoted, read, marks]

end scan

end Extraction

end FlowAtlas
