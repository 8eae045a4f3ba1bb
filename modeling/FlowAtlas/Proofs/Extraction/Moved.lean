import FlowAtlas.Proofs.Extraction.Openings

/-! Findings as they are with one more line among those of the file: the numbers behind it are moved by one, in the
ids as well. What is noted, opened and closed does not depend on the numbers. -/

namespace FlowAtlas

section moved

def movedLine (count : Nat) (line : Int) : Int := if line ≤ count then line else line + 1

def movedId (count : Nat) (path id : String) : String :=
  let moved? := do
    let (front, digits) ← Text.cutAt ['#'] (id.toList.drop path.length)
    let line ← (String.ofList digits).toInt?
    return s!"{path}{String.ofList front}#{movedLine count line}"
  moved?.getD id

variable (count : Nat) (path : String)

def CallSite.moved (call : CallSite) : CallSite := { call with line := movedLine count call.line }

def Decision.moved (decision : Decision) : Decision :=
  { decision with line := movedLine count decision.line, owner := decision.owner.map (movedId count path) }

def Routine.moved (routine : Routine) : Routine :=
  { routine with
    id := movedId count path routine.id
    line := movedLine count routine.line
    outgoing := routine.outgoing.map (CallSite.moved count)
    decisions := routine.decisions.map (Decision.moved count path) }

def ClassDecl.moved (declared : ClassDecl) : ClassDecl := { declared with line := movedLine count declared.line }

def ImportRef.moved (imported : ImportRef) : ImportRef := { imported with line := movedLine count imported.line }

/-- What is found in a file, as it is found with one more line behind its first `count` ones. -/
def Extraction.moved (found : Extraction) : Extraction :=
  { found with
    classes := found.classes.map (ClassDecl.moved count)
    routines := found.routines.map (Routine.moved count path)
    imports := found.imports.map (ImportRef.moved count)
    decisions := found.decisions.map (Decision.moved count path) }

end moved

namespace Extraction

def movedNumber (count line : Nat) : Nat := if line ≤ count then line else line + 1

theorem movedNumber_cast (count line : Nat) : (movedNumber count line : Int) = movedLine count line := by
  rw [movedNumber, movedLine]
  split <;> split <;> omega

theorem movedNumber_inj {count line other : Nat} : movedNumber count line = movedNumber count other ↔ line = other := by
  rw [movedNumber, movedNumber]
  split <;> split <;> omega

theorem movedLine_lt {count : Nat} {line other : Int} (before : line < other) :
    movedLine count line < movedLine count other := by
  rw [movedLine, movedLine]
  split <;> split <;> omega

section ids

open Findings

variable {path name : String} {owner : Option String} (named : IsName name) (owned : ∀ text ∈ owner, IsName text)

include named owned

theorem movedId_plain (count : Nat) : movedId count path (plainId path name owner) = plainId path name owner := by
  have tail : (plainId path name owner).toList.drop path.length = ':' :: idTail name owner := by
    rw [plainId_toList, ← String.length_toList, List.drop_left]
  have clean : '#' ∉ ':' :: idTail name owner := by
    simpa using hash_notMem_idTail named owned
  rw [movedId, tail, Text.cutAt_eq_none clean]
  rfl

theorem movedId_numbered (count : Nat) (line : Int) : movedId count path s!"{plainId path name owner}#{line}" =
    s!"{plainId path name owner}#{movedLine count line}" := by
  have tail : s!"{plainId path name owner}#{line}".toList.drop path.length =
      (':' :: idTail name owner) ++ (['#'] ++ (toString line).toList) := by
    rw [numberedId_toList, ← String.length_toList, List.drop_left]
    rfl
  have clean : '#' ∉ ':' :: idTail name owner := by
    simpa using hash_notMem_idTail named owned
  have digits : (String.ofList (toString line).toList).toInt? = some line := by
    rw [String.ofList_toList]
    exact Int.toInt?_repr line
  rw [movedId, tail, Text.cutAt_append clean]
  dsimp only [Option.bind_eq_bind, Option.bind_some]
  rw [digits]
  apply String.toList_inj.mp
  rw [numberedId_toList]
  simp [toString]

theorem movedId_idBehind (count : Nat) (earlier : List Routine) (line : Int) :
    movedId count path (idBehind path earlier name owner line) =
      idBehind path (earlier.map (Routine.moved count path)) name owner (movedLine count line) := by
  have namesakes : (earlier.map (Routine.moved count path)).any (Routine.isNamesake name owner) =
      earlier.any (Routine.isNamesake name owner) := List.any_map
  rw [idBehind, idBehind, namesakes]
  split
  · exact movedId_numbered named owned count line
  · exact movedId_plain named owned count

end ids

def Scope.moved (count : Nat) (scope : Scope) : Scope := { scope with line := movedNumber count scope.line }

def OpenedClass.moved (count : Nat) (opened : OpenedClass) : OpenedClass :=
  { opened with line := movedNumber count opened.line }

def Findings.moved (count : Nat) (findings : Findings) : Findings :=
  { findings with
    scopes := findings.scopes.map (Scope.moved count)
    classes := findings.classes.map (OpenedClass.moved count)
    routines := findings.routines.map (Routine.moved count findings.file)
    imports := findings.imports.map (ImportRef.moved count) }

section findings

variable (count : Nat) (findings : Findings) (line : Nat)

theorem addImports_moved (targets : List String) : (findings.addImports line targets).moved count =
    (findings.moved count).addImports (movedNumber count line) targets := by
  have imports : (findings.addImports line targets).imports.map (ImportRef.moved count) =
      ((findings.moved count).addImports (movedNumber count line) targets).imports := by
    simp [Findings.addImports, Findings.moved, ImportRef.moved, movedNumber_cast]
  exact congrArg (fun imports => { findings.moved count with imports }) imports

theorem noteImports_moved (braces : Braces) (raw : List Char) : (braces.noteImports findings raw line).moved count =
    braces.noteImports (findings.moved count) raw (movedNumber count line) := by
  cases braces with
  | literal => exact congrArg (Findings.addExported · _) (addImports_moved count findings line _)
  | typed => exact addImports_moved count findings line _

theorem closed_moved (p : Scope → Bool) :
    ({ findings with scopes := findings.scopes.dropWhile (p ∘ Scope.moved count) } : Findings).moved count =
      { findings.moved count with scopes := (findings.moved count).scopes.dropWhile p } := by
  have scopes := List.dropWhile_map (f := Scope.moved count) (p := p) (l := findings.scopes)
  exact congrArg (fun scopes => { findings.moved count with scopes }) scopes.symm

theorem dropWaiting_moved (previous code : List Char) :
    (findings.dropWaiting previous code).moved count = (findings.moved count).dropWaiting previous code := by
  rw [Findings.dropWaiting, Findings.dropWaiting]
  split
  · rfl
  · exact closed_moved count findings fun scope => !scope.started

theorem closeFrom_moved (indent : Nat) :
    (findings.closeFrom indent).moved count = (findings.moved count).closeFrom indent :=
  closed_moved count findings fun scope => indent ≤ scope.depth

theorem startBody_moved (opens : Nat) (scopes : List Scope) :
    (startBody opens scopes).map (Scope.moved count) = startBody opens (scopes.map (Scope.moved count)) := by
  cases scopes with
  | nil => rfl
  | cons scope outer =>
      rw [startBody, List.map_cons, List.map_cons, startBody]
      split <;> rfl

theorem endsAt_moved (scope : Scope) (code : List Char) (depth : Nat) :
    (scope.moved count).endsAt code (movedNumber count line) depth = scope.endsAt code line depth := by
  have same : (movedNumber count scope.line == movedNumber count line) = (scope.line == line) :=
    Bool.eq_iff_iff.mpr (by simpa using movedNumber_inj)
  exact congrArg (fun here => if scope.started then decide (depth ≤ scope.depth) else here && Text.endsWith code ";")
    same

theorem closeEnded_moved (code : List Char) (depth : Nat) : (findings.closeEnded code line depth).moved count =
    (findings.moved count).closeEnded code (movedNumber count line) depth := by
  let started := { findings with scopes := startBody (code.count '\x7b') findings.scopes }
  have body : started.moved count = { findings.moved count with
      scopes := startBody (code.count '\x7b') (findings.moved count).scopes } :=
    congrArg (fun scopes => { findings.moved count with scopes }) (startBody_moved count _ findings.scopes)
  have ends := closed_moved count started fun scope => scope.endsAt code (movedNumber count line) depth
  rw [body] at ends
  have same : (fun scope : Scope => scope.endsAt code (movedNumber count line) depth) ∘ Scope.moved count =
      fun scope => scope.endsAt code line depth := funext fun scope => endsAt_moved count line scope code depth
  rw [same] at ends
  exact ends

theorem innermost_moved : (findings.moved count).innermost? = findings.innermost? := by
  rw [Findings.innermost?, Findings.innermost?, Findings.moved, List.findSome?_map]
  rfl

theorem enclosingClass_moved : (findings.moved count).enclosingClass? = findings.enclosingClass? := by
  rw [Findings.enclosingClass?, Findings.enclosingClass?, Findings.moved, List.head?_map]
  cases findings.scopes.head? <;> rfl

theorem decisionOf_moved (path file owner : String) (code raw : List Char) :
    (Findings.decisionOf? file owner code raw line).map (Decision.moved count path) =
      Findings.decisionOf? file (movedId count path owner) code raw (movedNumber count line) := by
  rw [Findings.decisionOf?, Findings.decisionOf?, Option.map_map, movedNumber_cast]
  rfl

theorem withLine_moved (path : String) (routine : Routine) (code callText raw : List Char) :
    (Findings.withLine routine code callText raw line).moved count path =
      Findings.withLine (routine.moved count path) code callText raw (movedNumber count line) := by
  have noted : (Findings.decisionOf? routine.file routine.id code raw line).toList.map (Decision.moved count path) =
      (Findings.decisionOf? routine.file (movedId count path routine.id) code raw (movedNumber count line)).toList := by
    rw [← Option.toList_map, decisionOf_moved]
  simp only [Findings.withLine, Routine.moved, List.map_append, List.map_map, Function.comp_def, CallSite.moved,
    movedNumber_cast, ← noted, List.length_append, List.length_map]

theorem recordLine_moved (code callText raw : List Char) : (findings.recordLine code callText raw line).moved count =
    (findings.moved count).recordLine code callText raw (movedNumber count line) := by
  rw [Findings.recordLine, Findings.recordLine, innermost_moved]
  cases findings.innermost? with
  | none => rfl
  | some place =>
      have routines : (findings.routines.modify place fun routine =>
            Findings.withLine routine code callText raw line).map (Routine.moved count findings.file) =
          (findings.routines.map (Routine.moved count findings.file)).modify place fun routine =>
            Findings.withLine routine code callText raw (movedNumber count line) :=
        map_modify (fun routine => withLine_moved count line findings.file routine code callText raw)
          findings.routines place
      exact congrArg (fun routines => { findings.moved count with routines }) routines

theorem finish_moved : findings.finish.moved count findings.file = (findings.moved count).finish := by
  have routines : findings.finish.routines.map (Routine.moved count findings.file) =
      (findings.moved count).finish.routines := by
    change (findings.routines.map _).map _ = (findings.routines.map _).map _
    rw [List.map_map, List.map_map]
    rfl
  have decisions : findings.finish.decisions.map (Decision.moved count findings.file) =
      (findings.moved count).finish.decisions := by
    change (findings.finish.routines.flatMap _).map _ = (findings.moved count).finish.routines.flatMap _
    rw [← routines, List.map_flatMap, List.flatMap_map]
    rfl
  have methods : ∀ owner : String,
      (findings.finish.routines.filter fun routine => routine.owner == some owner).map (·.name) =
        ((findings.moved count).finish.routines.filter fun routine => routine.owner == some owner).map (·.name) := by
    intro owner
    rw [← routines, List.filter_map, List.map_map]
    rfl
  have classes : findings.finish.classes.map (ClassDecl.moved count) = (findings.moved count).finish.classes := by
    change (findings.classes.map _).map _ = (findings.classes.map _).map _
    rw [List.map_map, List.map_map]
    refine List.map_congr_left fun opened _ => ?_
    have line : movedLine count opened.line = (movedNumber count opened.line : Int) := (movedNumber_cast _ _).symm
    exact ClassDecl.mk.injEq .. ▸ ⟨rfl, rfl, line, methods opened.name, rfl⟩
  exact Extraction.ext rfl rfl classes routines rfl decisions

end findings

section declared

variable {openings : List Opening} {findings : Findings}

theorem Findings.Ided.moved (ided : findings.Ided) (count : Nat) : (findings.moved count).Ided := by
  refine ⟨?_, ?_, ?_⟩
  · intro place routine found
    rw [Findings.moved, List.getElem?_map] at found
    obtain ⟨before, held, rfl⟩ := Option.map_eq_some_iff.mp found
    have member := List.mem_of_getElem? held
    have id : movedId count findings.file _ = _ := movedId_idBehind (ided.names before member)
      (ided.owners before member) count (findings.routines.take place) before.line
    rw [← ided.ids place before held, List.map_take] at id
    exact id
  · intro routine member
    obtain ⟨before, among, rfl⟩ := List.mem_map.mp member
    exact ided.names before among
  · intro routine member
    obtain ⟨before, among, rfl⟩ := List.mem_map.mp member
    exact ided.owners before among

theorem freshId_moved (ided : findings.Ided) {name : String} {owner : Option String} (named : IsName name)
    (owned : ∀ text ∈ owner, IsName text) {line : Nat} (later : ∀ routine ∈ findings.routines, routine.line < line)
    (count : Nat) : (findings.moved count).freshId name owner (movedNumber count line) =
      movedId count findings.file (findings.freshId name owner line) := by
  have behind : ∀ routine ∈ (findings.moved count).routines, routine.line < movedNumber count line := by
    intro routine member
    obtain ⟨before, among, rfl⟩ := List.mem_map.mp member
    rw [movedNumber_cast]
    exact movedLine_lt (later before among)
  rw [Findings.freshId_eq (ided.moved count) named owned behind, Findings.freshId_eq ided named owned later,
    movedId_idBehind named owned, movedNumber_cast]
  rfl

theorem declareIf_moved (opened : Opened openings findings) {declared : Option (Declaration × List Char)}
    (named : ∀ declaration behind, declared = some (declaration, behind) → declaration.Named) {line : Nat}
    (later : ∀ opening ∈ openings, opening.line < line) (depth count : Nat) :
    (findings.declareIf declared line depth).moved count =
      (findings.moved count).declareIf declared (movedNumber count line) depth := by
  rcases declared with _ | ⟨declaration, behind⟩
  · rfl
  · have holds := named declaration behind rfl
    cases declaration with
    | classBody name exported =>
        have classes : (findings.classes ++ [(⟨name, line, exported⟩ : OpenedClass)]).map (OpenedClass.moved count) =
            findings.classes.map (OpenedClass.moved count) ++ [⟨name, movedNumber count line, exported⟩] :=
          List.map_append
        exact congrArg (fun classes => { (findings.moved count).openClass name (movedNumber count line) depth exported with
          classes }) classes
    | routine name kind isAsync exported receiver =>
        have owned := Findings.owner_named opened.scopes holds.2
        have fresh := freshId_moved opened.ided holds.1 owned (opened.lines_lt later) count
        have length : (findings.moved count).routines.length = findings.routines.length := List.length_map _
        change (findings.openRoutine _ _ _ _ _ _ _).moved count = (findings.moved count).openRoutine _ _ _ _ _ _ _
        simp only [Findings.openRoutine, enclosingClass_moved, fresh, length]
        simp [Findings.moved, Routine.moved, Scope.moved, movedNumber_cast]

end declared

end Extraction

end FlowAtlas
