import FlowAtlas.Extraction.Declaration
import FlowAtlas.Extraction.Forms.Indent
import FlowAtlas.Text.Lines

namespace FlowAtlas.Extraction

/-- The state between two lines: the long literal and the number of brackets that are open, whether a backslash
continues the line, and whether a list of public names goes on. -/
structure IndentedScan where
  findings : Findings
  opened : Option LongQuote := none
  brackets : Nat := 0
  continued : Bool := false
  inPublicList : Bool := false
  deriving Repr

def countOf (choices : List Char) (code : List Char) : Nat := code.countP choices.contains

/-- The declaration on a line of code, with the code behind the declared name. A name without an underscore in
front is exported from the outermost level. -/
def Indent.declaration? (code : List Char) (indent : Nat) : Option (Declaration × List Char) :=
  let isPublic := fun (name : List Char) => indent == 0 && !Text.startsWith name "_"
  match declaredClass? Indent.classForms code with
  | some found =>
    some (.classBody (String.ofList found.subject) (isPublic found.subject), found.afterSubject)
  | none =>
    (declaredRoutine? Indent.routineForms code).map fun (form, found) =>
      (.routine (String.ofList found.subject) form.kind (Text.startsWith code "async") (isPublic found.subject) none,
        found.afterSubject)

def Findings.closeFrom (findings : Findings) (indent : Nat) : Findings :=
  { findings with scopes := findings.scopes.dropWhile fun scope => indent ≤ scope.depth }

namespace IndentedScan

def notePublic (scan : IndentedScan) (inside : Bool) (raw : List Char) : IndentedScan :=
  if scan.inPublicList || (!inside && Indent.publicList.occursIn raw) then
    { scan with
      findings := scan.findings.addPublic (Indent.quotedNames raw)
      inPublicList := !(raw.any fun c => c == ']' || c == ')') }
  else scan

def noteStatement (findings : Findings) (code : List Char) (line indent : Nat) : Findings × List Char :=
  let declared := Indent.declaration? code indent
  let findings := findings.closeFrom indent
  let findings := findings.addImports line (Indent.importTargets code)
  (findings.declareIf declared line indent, callText declared code)

/-- A line with code on it; `inside` says whether it begins in a long literal. -/
def stepCode (scan : IndentedScan) (inside : Bool) (code raw : List Char) (line : Nat) : IndentedScan :=
  let (findings, callText) :=
    if scan.brackets == 0 && !scan.continued && !inside then
      noteStatement scan.findings code line (Text.indentation raw)
    else (scan.findings, code)
  { scan with
    findings := findings.recordLine code callText raw line
    brackets := scan.brackets + countOf ['(', '[', '\x7b'] code - countOf [')', ']', '\x7d'] code
    continued := Text.endsWith code "\\" }

def step (scan : IndentedScan) (raw : List Char) (line : Nat) : IndentedScan :=
  let inside := scan.opened.isSome
  let (code, opened) := indentedCode scan.opened raw
  let scan := { scan with opened }.notePublic inside (Text.trim raw)
  let code := Text.trim code
  if code.isEmpty then scan else scan.stepCode inside code raw line

end IndentedScan

def scanIndented (scan : IndentedScan) : Nat → List (List Char) → IndentedScan
  | _, [] => scan
  | line, raw :: rest => scanIndented (scan.step raw line) (line + 1) rest

end FlowAtlas.Extraction
