import FlowAtlas.Extraction.Declaration
import FlowAtlas.Extraction.Forms.Brace
import FlowAtlas.Extraction.Forms.Generic
import FlowAtlas.Text.Lines

/-! Scanning languages whose blocks stand in braces, line by line. -/

namespace FlowAtlas.Extraction

inductive Braces where
  | literal
  | typed
  deriving DecidableEq, Repr

/-- The state between two lines. `previous` is the last line with code. -/
structure BracedScan where
  findings : Findings
  depth : Nat := 0
  inComment : Bool := false
  inImports : Bool := false
  previous : List Char := []
  deriving Repr

def continuations : List String :=
  [",", "(", "[", "=>", "=", "+", "-", "*", "/", "&", "|", "?", ":", ".", "->"]

/-- Whether a declaration that waits for its body still waits at a line of code. -/
def stillWaiting (previous code : List Char) : Bool :=
  Text.startsWith code "\x7b" || continuations.any (Text.endsWith previous)

namespace Braces

def classForms : Braces → List Pattern
  | literal => Brace.classForms
  | typed => Generic.classForms

def routineForms : Braces → List RoutineForm
  | literal => Brace.routineForms
  | typed => Generic.routineForms

def startsUpper (name : List Char) : Bool := name.head?.any Text.isUpper

def classIsExported (braces : Braces) (code name : List Char) : Bool :=
  match braces with
  | literal => Brace.isExportLine code
  | typed => Generic.exportWord.occursIn code || (Text.startsWith code "type " && startsUpper name)

def routineOf (braces : Braces) (code : List Char) (form : RoutineForm) (found : Pattern.Match) : Declaration :=
  let name := String.ofList found.subject
  let head := found.upToEnd
  match braces with
  | literal =>
    .routine name form.kind (Pattern.occursIn (Decision.wholeWord ["async"]) head)
      (form.exported || Brace.isExportLine code) none
  | typed =>
    let receiver := do
      let span ← found.group? .receiver
      let inner ← Generic.receiverType.search? span.text
      some (String.ofList inner.subject)
    .routine name form.kind (Generic.asyncWord.occursIn head)
      (Generic.exportWord.occursIn head || (Text.startsWith code "func " && startsUpper found.subject)) receiver

def declaration? (braces : Braces) (code : List Char) : Option (Declaration × List Char) :=
  match declaredClass? braces.classForms code with
  | some found =>
    some (.classBody (String.ofList found.subject) (braces.classIsExported code found.subject),
      found.afterSubject)
  | none =>
    (declaredRoutine? braces.routineForms code).map fun (form, found) =>
      (braces.routineOf code form found, found.afterSubject)

def noteImports (braces : Braces) (findings : Findings) (raw : List Char) (line : Nat) : Findings :=
  match braces with
  | literal => (findings.addImports line (Brace.importTargets raw)).addExported (Brace.exportedNames raw)
  | typed => findings.addImports line (Generic.importTarget? raw).toList

end Braces

def startBody (opens : Nat) : List Scope → List Scope
  | [] => []
  | scope :: outer => (if 0 < opens then { scope with started := true } else scope) :: outer

/-- A scope ends when its braces are closed, or at a semicolon on its own line if no body started. -/
def Scope.endsAt (scope : Scope) (code : List Char) (line depth : Nat) : Bool :=
  if scope.started then depth ≤ scope.depth else scope.line == line && Text.endsWith code ";"

/-- Declarations that wait no longer for their body are closed. -/
def Findings.dropWaiting (findings : Findings) (previous code : List Char) : Findings :=
  if stillWaiting previous code then findings
  else { findings with scopes := findings.scopes.dropWhile fun scope => !scope.started }

/-- The braces of a line may start the innermost body, and close what ends at the depth behind the line. -/
def Findings.closeEnded (findings : Findings) (code : List Char) (line depth : Nat) : Findings :=
  { findings with
    scopes := (startBody (code.count '\x7b') findings.scopes).dropWhile fun scope => scope.endsAt code line depth }

namespace BracedScan

def stepImports (scan : BracedScan) (raw : List Char) (line : Nat) : BracedScan :=
  if Text.startsWith raw ")" then { scan with inImports := false }
  else
    match Generic.blockImport.search? raw with
    | some found => { scan with findings := scan.findings.addImports line [String.ofList found.subject] }
    | none => scan

def stepCode (braces : Braces) (scan : BracedScan) (code raw : List Char) (line : Nat) : BracedScan :=
  let declared := braces.declaration? code
  let findings := scan.findings.dropWaiting scan.previous code
  let findings := braces.noteImports findings (Text.trim raw) line
  let findings := findings.declareIf declared line scan.depth
  let findings := findings.recordLine code (callText declared code) raw line
  let depth := scan.depth + code.count '\x7b' - code.count '\x7d'
  { scan with findings := findings.closeEnded code line depth, depth, previous := code }

def step (braces : Braces) (scan : BracedScan) (raw : List Char) (line : Nat) : BracedScan :=
  let (code, inComment) := bracedCode scan.inComment raw
  let scan := { scan with inComment }
  let code := Text.trim code
  let bare := Text.trim raw
  if braces == .typed && scan.inImports then scan.stepImports bare line
  else if braces == .typed && (bare == "import (".toList || bare == "import(".toList) then
    { scan with inImports := true }
  else if code.isEmpty then scan
  else scan.stepCode braces code raw line

end BracedScan

def scanBraced (braces : Braces) (scan : BracedScan) : Nat → List (List Char) → BracedScan
  | _, [] => scan
  | line, raw :: rest => scanBraced braces (scan.step braces raw line) (line + 1) rest

end FlowAtlas.Extraction
