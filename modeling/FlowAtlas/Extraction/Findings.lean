import FlowAtlas.Extraction.Decision
import FlowAtlas.Extraction.Forms.Basic
import FlowAtlas.Source.Extraction

/-! What a scan has found so far in one file, with the scopes that are still open. -/

namespace FlowAtlas.Extraction

inductive ScopeKind where
  | classBody (name : String)
  | routine (place : Nat)
  deriving DecidableEq, Repr

/-- A declaration that is still open. The depth is that of its declaration; `started` says whether the brace
that opens its body was seen. -/
structure Scope where
  kind : ScopeKind
  line : Nat
  depth : Nat
  started : Bool := false
  deriving DecidableEq, Repr

structure OpenedClass where
  name : String
  line : Nat
  exported : Bool
  deriving DecidableEq, Repr

/-- The open scopes are listed innermost first, everything else in the order of the file. -/
structure Findings where
  file : String
  scopes : List Scope := []
  classes : List OpenedClass := []
  routines : List Routine := []
  imports : List ImportRef := []
  exportedNames : List String := []
  publicNames : Option (List String) := none
  deriving DecidableEq, Repr

def snippetLimit : Nat := 80

def callForm : Pattern :=
  .inOrder [.wordEdge, .group .subject (.seq (.one fun c => c.isAlpha || c == '_') (.run Text.isWord)), .blanks,
    .char '(']

def calledNames (code : List Char) : List String :=
  ((callForm.findAll code).map fun found => String.ofList found.subject).filter fun name => !isReserved name

namespace Findings

def innermost? (findings : Findings) : Option Nat :=
  findings.scopes.findSome? fun scope =>
    match scope.kind with
    | .routine place => some place
    | .classBody _ => none

def enclosingClass? (findings : Findings) : Option String :=
  findings.scopes.head?.bind fun scope =>
    match scope.kind with
    | .classBody name => some name
    | .routine _ => none

/-- The first candidate, counted from `suffix`, that is not in use. -/
def firstFree (used : List String) (candidate : Nat → String) : Nat → Nat → String
  | 0, suffix => candidate suffix
  | limit + 1, suffix =>
    if used.contains (candidate suffix) then firstFree used candidate limit (suffix + 1) else candidate suffix

def plainId (file name : String) : Option String → String
  | some owner => s!"{file}:{owner}.{name}"
  | none => s!"{file}:{name}"

/-- An id that no routine of the file has: the plain one, then also with the line, then also with a number. -/
def freshId (findings : Findings) (name : String) (owner : Option String) (line : Nat) : String :=
  let used := findings.routines.map (·.id)
  let base := plainId findings.file name owner
  if !used.contains base then base
  else if !used.contains s!"{base}#{line}" then s!"{base}#{line}"
  else firstFree used (fun suffix => s!"{base}#{line}.{suffix}") used.length 2

def addImports (findings : Findings) (line : Nat) (targets : List String) : Findings :=
  { findings with
    imports := findings.imports ++ targets.map fun target => ⟨findings.file, line, target⟩ }

def addExported (findings : Findings) (names : List String) : Findings :=
  { findings with exportedNames := findings.exportedNames ++ names }

def addPublic (findings : Findings) (names : List String) : Findings :=
  { findings with publicNames := some (findings.publicNames.getD [] ++ names) }

def openClass (findings : Findings) (name : String) (line depth : Nat) (exported : Bool) : Findings :=
  { findings with
    classes := findings.classes ++ [⟨name, line, exported⟩]
    scopes := { kind := .classBody name, line, depth } :: findings.scopes }

def openRoutine (findings : Findings) (name : String) (line depth : Nat) (formKind : RoutineKind)
    (isAsync exported : Bool) (receiver : Option String) : Findings :=
  let owner := receiver.or findings.enclosingClass?
  let routine : Routine :=
    { id := findings.freshId name owner line, name, file := findings.file, line, owner,
      kind := routineKind formKind name owner isAsync, exported }
  { findings with
    routines := findings.routines ++ [routine]
    scopes := { kind := .routine findings.routines.length, line, depth } :: findings.scopes }

def decisionOf? (file owner : String) (code raw : List Char) (line : Nat) : Option Decision :=
  (Decision.kindOf? code).map fun kind =>
    { kind, file, line, snippet := String.ofList ((Text.trim raw).take snippetLimit), owner := some owner,
      weight := Decision.weightOf code }

def withLine (routine : Routine) (code callText raw : List Char) (line : Nat) : Routine :=
  let decisions := routine.decisions ++ (decisionOf? routine.file routine.id code raw line).toList
  { routine with
    outgoing := routine.outgoing ++ (calledNames callText).map fun callee => ⟨callee, line⟩
    decisions
    cyclomaticWeight := 1 + decisions.length }

def recordLine (findings : Findings) (code callText raw : List Char) (line : Nat) : Findings :=
  match findings.innermost? with
  | some place =>
    { findings with
      routines := findings.routines.modify place fun routine => withLine routine code callText raw line }
  | none => findings

/-- A list of public names decides for the routines outside classes, export lists and modifiers for the rest. -/
def isExported (findings : Findings) (routine : Routine) : Bool :=
  match findings.publicNames, routine.owner with
  | some names, none => names.contains routine.name
  | _, _ => routine.exported || findings.exportedNames.contains routine.name

def finish (findings : Findings) : Extraction :=
  let routines := findings.routines.map fun routine =>
    { routine with exported := findings.isExported routine }
  { classes := findings.classes.map fun opened =>
      { name := opened.name, file := findings.file, line := opened.line,
        methods := (routines.filter fun routine => routine.owner == some opened.name).map (·.name),
        exported := opened.exported || findings.exportedNames.contains opened.name }
    routines
    imports := findings.imports
    decisions := routines.flatMap (·.decisions) }

end Findings

end FlowAtlas.Extraction
