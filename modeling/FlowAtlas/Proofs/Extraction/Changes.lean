import FlowAtlas.Extraction.File
import FlowAtlas.Proofs.Extraction.DeclaredNames
import Mathlib.Logic.Relation

/-! What a line can change in the findings. An invariant that each change keeps holds of every file. -/

namespace FlowAtlas.Extraction

theorem map_modify {α β : Type} {view : α → β} {change : α → α} {shown : β → β}
    (shows : ∀ item, view (change item) = shown (view item)) (items : List α) (place : Nat) :
    (items.modify place change).map view = (items.map view).modify place shown := by
  refine List.ext_getElem? fun i => ?_
  rw [List.getElem?_map, List.getElem?_modify, List.getElem?_modify, List.getElem?_map]
  cases items[i]? with
  | none => rfl
  | some item =>
      by_cases here : place = i
      · simp [here, shows item]
      · simp [here]

namespace Findings

inductive Change (line : Nat) : Findings → Findings → Prop where
  | imports (findings : Findings) (targets : List String) : Change line findings (findings.addImports line targets)
  | exported (findings : Findings) (names : List String) : Change line findings (findings.addExported names)
  | published (findings : Findings) (names : List String) : Change line findings (findings.addPublic names)
  | closed (findings : Findings) (p : Scope → Bool) :
      Change line findings { findings with scopes := findings.scopes.dropWhile p }
  | opened (findings : Findings) (opens : Nat) :
      Change line findings { findings with scopes := startBody opens findings.scopes }
  | declared (findings : Findings) (declaration : Declaration) (depth : Nat) (named : declaration.Named) :
      Change line findings (findings.declare declaration line depth)
  | recorded (findings : Findings) (code callText raw : List Char) :
      Change line findings (findings.recordLine code callText raw line)

def Changes (line : Nat) : Findings → Findings → Prop := Relation.ReflTransGen (Change line)

variable {line : Nat} {first second third : Findings}

theorem Change.changes (change : Change line first second) : Changes line first second :=
  Relation.ReflTransGen.single change

theorem Changes.refl (findings : Findings) : Changes line findings findings := Relation.ReflTransGen.refl

theorem Changes.trans (front : Changes line first second) (back : Changes line second third) :
    Changes line first third := Relation.ReflTransGen.trans front back

def Kept (P : Findings → Prop) : Prop := ∀ line first second, Change line first second → P first → P second

theorem Changes.keep {P : Findings → Prop} (kept : Kept P) (changes : Changes line first second)
    (holds : P first) : P second := by
  induction changes with
  | refl => exact holds
  | tail _ change ih => exact kept line _ _ change ih

theorem recordLine_scopes (findings : Findings) (code callText raw : List Char) (line : Nat) :
    (findings.recordLine code callText raw line).scopes = findings.scopes := by
  unfold recordLine
  split <;> rfl

theorem recordLine_file (findings : Findings) (code callText raw : List Char) (line : Nat) :
    (findings.recordLine code callText raw line).file = findings.file := by
  unfold recordLine
  split <;> rfl

theorem recordLine_map {α : Type} (view : Routine → α) (findings : Findings) (code callText raw : List Char)
    (line : Nat) (same : ∀ routine, view (withLine routine code callText raw line) = view routine) :
    (findings.recordLine code callText raw line).routines.map view = findings.routines.map view := by
  -- What calls and decisions do not touch is the same for every routine behind a line.
  unfold recordLine
  split
  · rename_i place _
    exact (map_modify same findings.routines place).trans (List.modify_id place _)
  · rfl

theorem Change.file {line : Nat} {first second : Findings} (change : Change line first second) :
    second.file = first.file := by
  cases change with
  | declared declaration depth named => cases declaration <;> rfl
  | recorded code callText raw => exact recordLine_file _ _ _ _ _
  | _ => rfl

end Findings

open Findings

theorem mem_startBody {opens : Nat} {scopes : List Scope} {scope : Scope} (member : scope ∈ startBody opens scopes) :
    scope ∈ scopes ∨ 0 < opens ∧ ∃ before ∈ scopes, { before with started := true } = scope := by
  cases scopes with
  | nil => cases member
  | cons first outer =>
      rcases List.mem_cons.mp member with rfl | member
      · split
        · rename_i opened
          exact Or.inr ⟨opened, first, List.mem_cons_self, rfl⟩
        · exact Or.inl List.mem_cons_self
      · exact Or.inl (List.mem_cons_of_mem _ member)

theorem step_eq (braces : Braces) (scan : BracedScan) (raw : List Char) (line : Nat) :
    scan.step braces raw line =
      let commented := { scan with inComment := (bracedCode scan.inComment raw).2 }
      let code := Text.trim (bracedCode scan.inComment raw).1
      let bare := Text.trim raw
      if braces == .typed && scan.inImports then commented.stepImports bare line
      else if braces == .typed && (bare == "import (".toList || bare == "import(".toList) then
        { commented with inImports := true }
      else if code.isEmpty then commented
      else commented.stepCode braces code raw line := rfl

def IndentedScan.beginsStatement (scan : IndentedScan) (inside : Bool) : Bool :=
  scan.brackets == 0 && !scan.continued && !inside

theorem indented_stepCode_eq (scan : IndentedScan) (inside : Bool) (code raw : List Char) (line : Nat) :
    scan.stepCode inside code raw line =
      let noted := if scan.beginsStatement inside
        then IndentedScan.noteStatement scan.findings code line (Text.indentation raw)
        else (scan.findings, code)
      { scan with
        findings := noted.1.recordLine code noted.2 raw line
        brackets := scan.brackets + countOf ['(', '[', '\x7b'] code - countOf [')', ']', '\x7d'] code
        continued := Text.endsWith code "\\" } := rfl

theorem indented_step_eq (scan : IndentedScan) (raw : List Char) (line : Nat) :
    scan.step raw line =
      let noted := { scan with opened := (indentedCode scan.opened raw).2 }.notePublic scan.opened.isSome
        (Text.trim raw)
      let code := Text.trim (indentedCode scan.opened raw).1
      if code.isEmpty then noted else noted.stepCode scan.opened.isSome code raw line := rfl

variable {line : Nat}

theorem dropWaiting_changes (findings : Findings) (previous code : List Char) :
    Changes line findings (findings.dropWaiting previous code) := by
  rw [dropWaiting]
  split
  · exact .refl _
  · exact (Change.closed _ _).changes

theorem noteImports_changes (braces : Braces) (findings : Findings) (raw : List Char) :
    Changes line findings (braces.noteImports findings raw line) := by
  cases braces with
  | literal => exact (Change.imports _ _).changes.trans (Change.exported _ _).changes
  | typed => exact (Change.imports _ _).changes

theorem declareIf_changes (findings : Findings) (depth : Nat) {declared : Option (Declaration × List Char)}
    (named : ∀ declaration behind, declared = some (declaration, behind) → declaration.Named) :
    Changes line findings (findings.declareIf declared line depth) := by
  cases declared with
  | none => exact .refl _
  | some pair => exact (Change.declared _ pair.1 depth (named pair.1 pair.2 rfl)).changes

theorem closeEnded_changes (findings : Findings) (code : List Char) (depth : Nat) :
    Changes line findings (findings.closeEnded code line depth) :=
  (Change.opened _ _).changes.trans (Change.closed _ _).changes

theorem stepCode_changes (braces : Braces) (scan : BracedScan) (code raw : List Char) :
    Changes line scan.findings (scan.stepCode braces code raw line).findings := by
  have waiting : Changes line scan.findings _ := dropWaiting_changes scan.findings scan.previous code
  have imports := waiting.trans (noteImports_changes braces _ (Text.trim raw))
  have named : ∀ declaration behind, braces.declaration? code = some (declaration, behind) → declaration.Named :=
    fun _ _ found => braced_named found
  have declared := imports.trans (declareIf_changes _ scan.depth named)
  exact (declared.trans (Change.recorded _ _ _ _).changes).trans (closeEnded_changes _ _ _)

theorem stepImports_changes (scan : BracedScan) (raw : List Char) :
    Changes line scan.findings (scan.stepImports raw line).findings := by
  unfold BracedScan.stepImports
  split
  · exact .refl _
  · split
    · exact (Change.imports _ _).changes
    · exact .refl _

theorem step_changes (braces : Braces) (scan : BracedScan) (raw : List Char) :
    Changes line scan.findings (scan.step braces raw line).findings := by
  let commented := { scan with inComment := (bracedCode scan.inComment raw).2 }
  have imports : Changes line scan.findings (commented.stepImports (Text.trim raw) line).findings :=
    stepImports_changes commented _
  have code : Changes line scan.findings
      (commented.stepCode braces (Text.trim (bracedCode scan.inComment raw).1) raw line).findings :=
    stepCode_changes braces commented _ _
  rw [step_eq]
  dsimp only
  split
  · exact imports
  · split
    · exact .refl _
    · split
      · exact .refl _
      · exact code

theorem notePublic_changes (scan : IndentedScan) (inside : Bool) (raw : List Char) :
    Changes line scan.findings (scan.notePublic inside raw).findings := by
  rw [IndentedScan.notePublic]
  split
  · exact (Change.published _ _).changes
  · exact .refl _

theorem noteStatement_changes (findings : Findings) (code : List Char) (indent : Nat) :
    Changes line findings (IndentedScan.noteStatement findings code line indent).1 := by
  have closed : Changes line findings (findings.closeFrom indent) := (Change.closed _ _).changes
  have imports := closed.trans (Change.imports _ (Indent.importTargets code)).changes
  exact imports.trans (declareIf_changes _ indent fun _ _ found => indented_named found)

theorem indented_stepCode_changes (scan : IndentedScan) (inside : Bool) (code raw : List Char) :
    Changes line scan.findings (scan.stepCode inside code raw line).findings := by
  have noted : Changes line scan.findings
      (if scan.beginsStatement inside
        then IndentedScan.noteStatement scan.findings code line (Text.indentation raw)
        else (scan.findings, code)).1 := by
    split
    · exact noteStatement_changes _ _ _
    · exact .refl _
  rw [indented_stepCode_eq]
  exact noted.trans (Change.recorded _ _ _ _).changes

theorem indented_step_changes (scan : IndentedScan) (raw : List Char) :
    Changes line scan.findings (scan.step raw line).findings := by
  have noted : Changes line scan.findings _ :=
    notePublic_changes { scan with opened := (indentedCode scan.opened raw).2 } scan.opened.isSome (Text.trim raw)
  rw [indented_step_eq]
  dsimp only
  split
  · exact noted
  · exact noted.trans (indented_stepCode_changes _ _ _ _)

variable {P : Findings → Prop}

theorem scanBraced_keeps (kept : Kept P) (braces : Braces) (lines : List (List Char)) :
    ∀ (scan : BracedScan) (line : Nat), P scan.findings → P (scanBraced braces scan line lines).findings := by
  induction lines with
  | nil => exact fun _ _ holds => holds
  | cons raw rest ih =>
      intro scan line holds
      exact ih _ _ ((step_changes braces scan raw).keep kept holds)

theorem scanIndented_keeps (kept : Kept P) (lines : List (List Char)) :
    ∀ (scan : IndentedScan) (line : Nat), P scan.findings → P (scanIndented scan line lines).findings := by
  induction lines with
  | nil => exact fun _ _ holds => holds
  | cons raw rest ih =>
      intro scan line holds
      exact ih _ _ ((indented_step_changes scan raw).keep kept holds)

theorem findingsOf_keeps (kept : Kept P) (path : String) (dialect : Dialect) (lines : List (List Char))
    (holds : P { file := path }) : P (findingsOf path dialect lines) := by
  cases dialect with
  | brace => exact scanBraced_keeps kept .literal lines _ 1 holds
  | generic => exact scanBraced_keeps kept .typed lines _ 1 holds
  | indent => exact scanIndented_keeps kept lines _ 1 holds

theorem findingsOf_file (path : String) (dialect : Dialect) (lines : List (List Char)) :
    (findingsOf path dialect lines).file = path :=
  findingsOf_keeps (P := fun findings => findings.file = path)
    (fun _ _ _ change same => change.file.trans same) path dialect lines rfl

end FlowAtlas.Extraction
