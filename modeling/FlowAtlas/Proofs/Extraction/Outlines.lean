import FlowAtlas.Proofs.Extraction.Openings

/-! What is told of the routines of a file apart from the numbers of their lines. Two scans of lines in braces that
stand at different lines, but are alike otherwise, come to the same. -/

namespace FlowAtlas

/-- What is told of a routine without its id and its lines. -/
structure Outline where
  name : String
  owner : Option String
  kind : RoutineKind
  callees : List String
  decisions : List DecisionKind
  deriving DecidableEq, Repr

def Routine.outline (routine : Routine) : Outline where
  name := routine.name
  owner := routine.owner
  kind := routine.kind
  callees := routine.outgoing.map (·.callee)
  decisions := routine.decisions.map (·.kind)

def Outline.extended (outline : Outline) (callees : List String) (kind : Option DecisionKind) : Outline :=
  { outline with callees := outline.callees ++ callees, decisions := outline.decisions ++ kind.toList }

namespace Extraction

def ScopeKind.className? : ScopeKind → Option String
  | .classBody name => some name
  | .routine _ => none

def ScopeKind.place? : ScopeKind → Option Nat
  | .routine place => some place
  | .classBody _ => none

def Scope.seenFrom (line : Nat) (scope : Scope) : Scope := { scope with line := if scope.line = line then 1 else 0 }

theorem endsAt_seenFrom (scope : Scope) (code : List Char) (line depth : Nat) :
    (scope.seenFrom line).endsAt code 1 depth = scope.endsAt code line depth := by
  have own : ((if scope.line = line then 1 else 0 : Nat) == 1) = (scope.line == line) := by
    by_cases here : scope.line = line <;> simp [here]
  rw [Scope.endsAt, Scope.endsAt, Scope.seenFrom]
  dsimp only
  rw [own]

theorem startBody_seenFrom (line opens : Nat) (scopes : List Scope) :
    (startBody opens scopes).map (Scope.seenFrom line) = startBody opens (scopes.map (Scope.seenFrom line)) := by
  cases scopes with
  | nil => rfl
  | cons scope outer =>
      have head : Scope.seenFrom line (if 0 < opens then { scope with started := true } else scope) =
          if 0 < opens then { scope.seenFrom line with started := true } else scope.seenFrom line := by
        split <;> rfl
      exact congrArg (· :: outer.map (Scope.seenFrom line)) head

/-- Findings at two lines that differ in numbers of lines, imports and what is exported. -/
structure Findings.Parallel (line other : Nat) (first second : Findings) : Prop where
  routines : first.routines.map Routine.outline = second.routines.map Routine.outline
  scopes : first.scopes.map (Scope.seenFrom line) = second.scopes.map (Scope.seenFrom other)

section findings

theorem map_dropWhile_congr {α β : Type} {look twin : α → β} {test check : α → Bool}
    (tell : ∀ item other, look item = twin other → test item = check other) {first : List α} :
    ∀ {second : List α}, first.map look = second.map twin →
      (first.dropWhile test).map look = (second.dropWhile check).map twin := by
  induction first with
  | nil =>
      intro second same
      rw [List.map_nil, eq_comm, List.map_eq_nil_iff] at same
      rw [same]
      rfl
  | cons item rest ih =>
      intro second same
      cases second with
      | nil => cases same
      | cons other others =>
          obtain ⟨here, later⟩ := List.cons.inj same
          rw [List.dropWhile_cons, List.dropWhile_cons, tell item other here]
          split
          · exact ih later
          · exact same

variable {line other : Nat} {first second : Findings}

namespace Findings

theorem Parallel.kinds (parallel : Parallel line other first second) :
    first.scopes.map (·.kind) = second.scopes.map (·.kind) := by
  have kinds := congrArg (List.map Scope.kind) parallel.scopes
  rwa [List.map_map, List.map_map] at kinds

theorem Parallel.enclosingClass (parallel : Parallel line other first second) :
    first.enclosingClass? = second.enclosingClass? := by
  have told : ∀ findings : Findings,
      findings.enclosingClass? = (findings.scopes.map (·.kind)).head?.bind ScopeKind.className? := by
    intro findings
    rw [List.head?_map, Option.bind_map]
    rfl
  rw [told, told, parallel.kinds]

theorem Parallel.innermost (parallel : Parallel line other first second) :
    first.innermost? = second.innermost? := by
  have told : ∀ findings : Findings,
      findings.innermost? = (findings.scopes.map (·.kind)).findSome? ScopeKind.place? := by
    intro findings
    rw [List.findSome?_map]
    rfl
  rw [told, told, parallel.kinds]

theorem Parallel.dropWaiting (parallel : Parallel line other first second) {previous earlier code text : List Char}
    (waits : stillWaiting previous code = stillWaiting earlier text) :
    Parallel line other (first.dropWaiting previous code) (second.dropWaiting earlier text) := by
  rw [Findings.dropWaiting, Findings.dropWaiting, waits]
  split
  · exact parallel
  · refine ⟨parallel.routines, map_dropWhile_congr ?_ parallel.scopes⟩
    intro scope twin same
    have started : (scope.seenFrom line).started = (twin.seenFrom other).started := congrArg Scope.started same
    exact congrArg (!·) started

theorem Parallel.noteImports (parallel : Parallel line other first second) (braces : Braces) (raw text : List Char) :
    Parallel line other (braces.noteImports first raw line) (braces.noteImports second text other) := by
  refine ⟨?_, ?_⟩
  · rw [noteImports_routines, noteImports_routines, parallel.routines]
  · rw [noteImports_scopes, noteImports_scopes, parallel.scopes]

theorem Parallel.declareIf (parallel : Parallel line other first second)
    {declared redeclared : Option (Declaration × List Char)}
    (same : declared.map (·.1) = redeclared.map (·.1)) (depth : Nat) :
    Parallel line other (first.declareIf declared line depth) (second.declareIf redeclared other depth) := by
  have fresh : ∀ kind, Scope.seenFrom line { kind, line, depth } =
      Scope.seenFrom other { kind, line := other, depth } := by
    intro kind
    simp [Scope.seenFrom]
  rcases declared with _ | ⟨declaration, behind⟩ <;> rcases redeclared with _ | ⟨again, rest⟩
  · exact parallel
  · cases same
  · cases same
  · obtain rfl : declaration = again := Option.some.inj same
    cases declaration with
    | classBody name exported =>
        exact ⟨parallel.routines, congrArg₂ List.cons (fresh _) parallel.scopes⟩
    | routine name kind isAsync exported receiver =>
        have length : first.routines.length = second.routines.length := by
          have lengths := congrArg List.length parallel.routines
          rwa [List.length_map, List.length_map] at lengths
        have opened : ∀ findings : Findings, ∀ number,
            (findings.openRoutine name number depth kind isAsync exported receiver).routines.map Routine.outline =
              findings.routines.map Routine.outline ++ [⟨name, receiver.or findings.enclosingClass?,
                routineKind kind name (receiver.or findings.enclosingClass?) isAsync, [], []⟩] :=
          fun _ _ => List.map_append
        refine ⟨?_, congrArg₂ List.cons ?_ parallel.scopes⟩
        · change (first.openRoutine _ _ _ _ _ _ _).routines.map _ = (second.openRoutine _ _ _ _ _ _ _).routines.map _
          rw [opened, opened, parallel.routines, parallel.enclosingClass]
        · rw [length]
          exact fresh _

theorem outline_withLine (routine : Routine) (code callText raw : List Char) (line : Nat) :
    (withLine routine code callText raw line).outline =
      routine.outline.extended (calledNames callText) (Decision.kindOf? code) := by
  have callees : (withLine routine code callText raw line).outgoing.map (·.callee) =
      routine.outgoing.map (·.callee) ++ calledNames callText := by
    rw [withLine, List.map_append, List.map_map]
    exact congrArg _ (List.map_id _)
  have decisions : (withLine routine code callText raw line).decisions.map (·.kind) =
      routine.decisions.map (·.kind) ++ (Decision.kindOf? code).toList := by
    rw [withLine, List.map_append, decisionOf?, Option.toList_map, List.map_map]
    exact congrArg _ (List.map_id _)
  rw [Routine.outline, callees, decisions]
  rfl

theorem recordLine_outlines (findings : Findings) (code callText raw : List Char) (line : Nat) :
    (findings.recordLine code callText raw line).routines.map Routine.outline =
      (findings.innermost?).elim (findings.routines.map Routine.outline) fun place =>
        (findings.routines.map Routine.outline).modify place fun outline =>
          outline.extended (calledNames callText) (Decision.kindOf? code) := by
  rw [Findings.recordLine]
  cases findings.innermost? with
  | none => rfl
  | some place => exact map_modify (fun routine => outline_withLine routine code callText raw line) _ _

theorem Parallel.recordLine (parallel : Parallel line other first second) {code text callText others : List Char}
    (calls : calledNames callText = calledNames others) (kind : Decision.kindOf? code = Decision.kindOf? text)
    (raw another : List Char) :
    Parallel line other (first.recordLine code callText raw line) (second.recordLine text others another other) := by
  refine ⟨?_, ?_⟩
  · rw [recordLine_outlines, recordLine_outlines, parallel.innermost, parallel.routines, calls, kind]
  · rw [recordLine_scopes, recordLine_scopes, parallel.scopes]

theorem Parallel.closeEnded (parallel : Parallel line other first second) (code : List Char) (depth : Nat) :
    Parallel line other (first.closeEnded code line depth) (second.closeEnded code other depth) := by
  refine ⟨parallel.routines, map_dropWhile_congr ?_ ?_⟩
  · intro scope twin same
    rw [← endsAt_seenFrom scope, ← endsAt_seenFrom twin, same]
  · rw [startBody_seenFrom, startBody_seenFrom, parallel.scopes]

theorem Parallel.next (parallel : Parallel line other first second) {later beyond : Nat}
    (early : ∀ scope ∈ first.scopes, scope.line < later) (before : ∀ scope ∈ second.scopes, scope.line < beyond) :
    Parallel later beyond first second := by
  refine ⟨parallel.routines, ?_⟩
  have seen : ∀ {scopes : List Scope} {number later : Nat}, (∀ scope ∈ scopes, scope.line < later) →
      scopes.map (Scope.seenFrom later) =
        (scopes.map (Scope.seenFrom number)).map fun scope => { scope with line := 0 } := by
    intro scopes number later early
    rw [List.map_map]
    refine List.map_congr_left fun scope member => ?_
    have apart : scope.line ≠ later := Nat.ne_of_lt (early scope member)
    simp [Scope.seenFrom, apart]
  rw [seen early, seen before, parallel.scopes]

end Findings

end findings

namespace Blocks

def skips (braces : Braces) (blocks : Blocks) (raw : List Char) : Bool :=
  blocks.imports || (braces.marks raw).opensImports || (Text.trim (bracedCode blocks.comment raw).1).isEmpty

theorem skips_of_declared {braces : Braces} {blocks : Blocks} {raw behind : List Char} {declaration : Declaration}
    (declared : blocks.declared? braces raw = some (declaration, behind)) : blocks.skips braces raw = false := by
  rw [Blocks.declared?] at declared
  split at declared
  · cases declared
  · rename_i outside
    have given : Text.trim (bracedCode blocks.comment raw).1 ≠ [] := by
      intro none
      rw [none, declares_nothing] at declared
      cases declared
    rw [skips, eq_false_of_ne_true outside, Bool.false_or, List.isEmpty_eq_false_iff]
    exact given

theorem outside_of_reads {braces : Braces} {blocks : Blocks} {raw : List Char}
    (reads : blocks.skips braces raw = false) : (blocks.next braces raw).imports = false := by
  obtain ⟨⟨outside, apart⟩, _⟩ : (blocks.imports = false ∧ (braces.marks raw).opensImports = false) ∧ _ = false := by
    rw [← Bool.or_eq_false_iff, ← Bool.or_eq_false_iff]
    exact reads
  rw [next, outside, apart]
  rfl

end Blocks

/-- What two lines of code have in common if they do the same but for their braces. -/
structure SameLine (braces : Braces) (code text : List Char) : Prop where
  declared : (braces.declaration? code).map (·.1) = (braces.declaration? text).map (·.1)
  calls : calledNames (callText (braces.declaration? code) code) =
    calledNames (callText (braces.declaration? text) text)
  kind : Decision.kindOf? code = Decision.kindOf? text
  starts : Text.startsWith code "\x7b" = Text.startsWith text "\x7b"

theorem SameLine.refl (braces : Braces) (code : List Char) : SameLine braces code code := ⟨rfl, rfl, rfl, rfl⟩

namespace BracedScan

variable {braces : Braces} {scan first second : BracedScan} {line other : Nat}

def recorded (braces : Braces) (scan : BracedScan) (code raw : List Char) (line : Nat) : Findings :=
  let declared := braces.declaration? code
  let findings := braces.noteImports (scan.findings.dropWaiting scan.previous code) (Text.trim raw) line
  (findings.declareIf declared line scan.depth).recordLine code (callText declared code) raw line

theorem recorded_scopes (scan : BracedScan) (code raw : List Char) (line : Nat) :
    (scan.recorded braces code raw line).scopes = scan.entered braces code line := by
  rw [recorded, Findings.recordLine_scopes, entered]
  exact declareIf_scopes_congr (noteImports_scopes _ _ _ _) (noteImports_routines _ _ _ _) _ _ _

theorem recorded_silent {code : List Char} (undeclared : braces.declaration? code = none)
    (calls : calledNames code = []) (kind : Decision.kindOf? code = none) (raw : List Char) (line : Nat) :
    (scan.recorded braces code raw line).routines.map Routine.outline = scan.findings.routines.map Routine.outline := by
  have same : ∀ outline : Outline, outline.extended [] none = outline := by
    intro outline
    rw [Outline.extended, Option.toList_none, List.append_nil, List.append_nil]
  have kept : (braces.noteImports (scan.findings.dropWaiting scan.previous code) (Text.trim raw) line).routines =
      scan.findings.routines := by rw [noteImports_routines, dropWaiting_routines]
  rw [recorded, undeclared]
  dsimp only [callText, Findings.declareIf, Option.elim_none]
  rw [Findings.recordLine_outlines, calls, kind, kept]
  cases Findings.innermost? _ with
  | none => rfl
  | some place => exact (congrArg (List.modify _ place) (funext same)).trans (List.modify_id place _)

structure Idle (scan behind : BracedScan) : Prop where
  depth : behind.depth = scan.depth
  previous : behind.previous = scan.previous
  scopes : behind.findings.scopes = scan.findings.scopes
  routines : behind.findings.routines = scan.findings.routines

structure Reads (braces : Braces) (raw : List Char) (line : Nat) (scan behind : BracedScan) : Prop where
  depth : behind.depth = scan.depth + (scan.codeOf raw).count '\x7b' - (scan.codeOf raw).count '\x7d'
  previous : behind.previous = scan.codeOf raw
  findings : behind.findings =
    (scan.recorded braces (scan.codeOf raw) raw line).closeEnded (scan.codeOf raw) line behind.depth

theorem Reads.scopes {raw : List Char} {behind : BracedScan} (reads : Reads braces raw line scan behind) :
    behind.findings.scopes =
      (startBody ((scan.codeOf raw).count '\x7b') (scan.entered braces (scan.codeOf raw) line)).dropWhile fun scope =>
        scope.endsAt (scan.codeOf raw) line behind.depth := by
  rw [reads.findings, ← recorded_scopes]
  rfl

theorem Reads.routines {raw : List Char} {behind : BracedScan} (reads : Reads braces raw line scan behind) :
    behind.findings.routines = (scan.recorded braces (scan.codeOf raw) raw line).routines := by
  rw [reads.findings]
  rfl

theorem step_idle {raw : List Char} (skips : (scan.blocks braces).skips braces raw = true) (line : Nat) :
    Idle scan (scan.step braces raw line) := by
  rw [step_eq]
  dsimp only
  rw [opensImports_eq]
  split
  · rw [stepImports]
    split
    · exact ⟨rfl, rfl, rfl, rfl⟩
    · split <;> exact ⟨rfl, rfl, rfl, rfl⟩
  · rename_i outside
    split
    · exact ⟨rfl, rfl, rfl, rfl⟩
    · rename_i apart
      have empty : (Text.trim (bracedCode scan.inComment raw).1).isEmpty = true := by
        change ((braces == .typed && scan.inImports) || _ || _) = true at skips
        rw [eq_false_of_ne_true outside, eq_false_of_ne_true apart] at skips
        exact skips
      rw [if_pos empty]
      exact ⟨rfl, rfl, rfl, rfl⟩

theorem step_reads {raw : List Char} (reads : (scan.blocks braces).skips braces raw = false) (line : Nat) :
    Reads braces raw line scan (scan.step braces raw line) := by
  obtain ⟨⟨outside, apart⟩, solid⟩ : ((braces == .typed && scan.inImports) = false ∧
      (braces.marks raw).opensImports = false) ∧ (scan.codeOf raw).isEmpty = false := by
    rw [← Bool.or_eq_false_iff, ← Bool.or_eq_false_iff]
    exact reads
  have filled : ¬(Text.trim (bracedCode scan.inComment raw).1).isEmpty = true := Bool.eq_false_iff.mp solid
  rw [step_eq]
  dsimp only
  rw [opensImports_eq, outside, apart, if_neg (by decide), if_neg (by decide), if_neg filled]
  exact ⟨rfl, rfl, rfl⟩

theorem step_lines (braces : Braces) (early : ∀ scope ∈ scan.findings.scopes, scope.line < line) (raw : List Char) :
    ∀ scope ∈ (scan.step braces raw line).findings.scopes, scope.line < line + 1 := by
  intro scope member
  rcases mem_step member with old | ⟨new, _⟩ | ⟨_, new | ⟨before, held, same⟩⟩
  · exact Nat.lt_succ_of_lt (early scope old)
  · exact new ▸ Nat.lt_succ_self line
  · exact new ▸ Nat.lt_succ_self line
  · exact same ▸ Nat.lt_succ_of_lt (early before held)

structure Parallel (braces : Braces) (line other : Nat) (first second : BracedScan) : Prop where
  findings : first.findings.Parallel line other second.findings
  blocks : first.blocks braces = second.blocks braces
  depth : first.depth = second.depth
  waits : continuations.any (Text.endsWith first.previous) = continuations.any (Text.endsWith second.previous)
  early : ∀ scope ∈ first.findings.scopes, scope.line < line
  before : ∀ scope ∈ second.findings.scopes, scope.line < other

theorem Parallel.recorded (parallel : Parallel braces line other first second) {code text : List Char}
    (same : SameLine braces code text) (raw another : List Char) :
    (first.recorded braces code raw line).Parallel line other (second.recorded braces text another other) := by
  have waits : stillWaiting first.previous code = stillWaiting second.previous text := by
    rw [stillWaiting, stillWaiting, same.starts, parallel.waits]
  have noted := (parallel.findings.dropWaiting waits).noteImports braces (Text.trim raw) (Text.trim another)
  have declared := noted.declareIf same.declared first.depth
  rw [BracedScan.recorded, BracedScan.recorded, ← parallel.depth]
  exact declared.recordLine same.calls same.kind raw another

theorem Parallel.step (parallel : Parallel braces line other first second) (raw : List Char) :
    Parallel braces (line + 1) (other + 1) (first.step braces raw line) (second.step braces raw other) := by
  have early := step_lines braces parallel.early raw
  have before := step_lines braces parallel.before raw
  have blocks : (first.step braces raw line).blocks braces = (second.step braces raw other).blocks braces := by
    rw [step_blocks, step_blocks, parallel.blocks]
  cases skips : (first.blocks braces).skips braces raw with
  | true =>
      have here := step_idle skips line
      have there := step_idle (parallel.blocks ▸ skips) other
      have findings : (first.step braces raw line).findings.Parallel line other
          (second.step braces raw other).findings := by
        refine ⟨?_, ?_⟩
        · rw [here.routines, there.routines, parallel.findings.routines]
        · rw [here.scopes, there.scopes, parallel.findings.scopes]
      refine ⟨findings.next early before, blocks, ?_, ?_, early, before⟩
      · rw [here.depth, there.depth, parallel.depth]
      · rw [here.previous, there.previous, parallel.waits]
  | false =>
      have comment : first.inComment = second.inComment := congrArg Blocks.comment parallel.blocks
      have code : first.codeOf raw = second.codeOf raw := by rw [codeOf, codeOf, comment]
      have here := step_reads skips line
      have there := step_reads (parallel.blocks ▸ skips) other
      have depth : (first.step braces raw line).depth = (second.step braces raw other).depth := by
        rw [here.depth, there.depth, code, parallel.depth]
      have findings : (first.step braces raw line).findings.Parallel line other
          (second.step braces raw other).findings := by
        rw [here.findings, there.findings, code, depth]
        exact (parallel.recorded (SameLine.refl braces _) raw raw).closeEnded _ _
      refine ⟨findings.next early before, blocks, depth, ?_, early, before⟩
      rw [here.previous, there.previous, code]

theorem Parallel.scanBraced (lines : List (List Char)) : ∀ {line other : Nat} {first second : BracedScan},
    Parallel braces line other first second →
      Parallel braces (line + lines.length) (other + lines.length) (scanBraced braces first line lines)
        (scanBraced braces second other lines) := by
  induction lines with
  | nil => exact fun parallel => parallel
  | cons raw rest ih =>
      intro line other first second parallel
      have later := ih (parallel.step raw)
      rwa [Nat.add_right_comm, Nat.add_right_comm other] at later

theorem Parallel.refl (braces : Braces) (early : ∀ scope ∈ scan.findings.scopes, scope.line < line) :
    Parallel braces line line scan scan := ⟨⟨rfl, rfl⟩, rfl, rfl, rfl, early, early⟩

end BracedScan

def SameId (first second : Routine) : Prop :=
  second.id = first.id ∨ ∃ plain : String, first.id = s!"{plain}#{first.line}" ∧ second.id = s!"{plain}#{second.line}"

structure SameRoutines (first second : List Routine) : Prop where
  outlines : second.map Routine.outline = first.map Routine.outline
  ids : ∀ (place : Nat) (routine other : Routine), first[place]? = some routine → second[place]? = some other →
    SameId routine other

theorem any_isNamesake_outline (name : String) (owner : Option String) (routines : List Routine) :
    routines.any (Routine.isNamesake name owner) = (routines.map Routine.outline).any fun outline =>
      outline.name == name && outline.owner == owner := by
  rw [List.any_map]
  rfl

theorem Findings.finish_sameRoutines {first second : Findings} (file : second.file = first.file) (ided : first.Ided)
    (reided : second.Ided) (same : second.routines.map Routine.outline = first.routines.map Routine.outline) :
    SameRoutines first.finish.routines second.finish.routines := by
  have finished : ∀ findings : Findings, findings.finish.routines.map Routine.outline =
      findings.routines.map Routine.outline := fun _ => List.map_map
  refine ⟨by rw [finished, finished, same], ?_⟩
  intro place routine other here there
  rw [Findings.finish, List.getElem?_map] at here there
  obtain ⟨routine, found, rfl⟩ := Option.map_eq_some_iff.mp here
  obtain ⟨other, held, rfl⟩ := Option.map_eq_some_iff.mp there
  have outlines := congrArg (fun outlines : List Outline => outlines[place]?) same
  simp only [List.getElem?_map, found, held, Option.map_some, Option.some.injEq] at outlines
  have name : other.name = routine.name := congrArg Outline.name outlines
  have owner : other.owner = routine.owner := congrArg Outline.owner outlines
  have earlier : ∀ name owner, (second.routines.take place).any (Routine.isNamesake name owner) =
      (first.routines.take place).any (Routine.isNamesake name owner) := by
    intro name owner
    rw [any_isNamesake_outline, any_isNamesake_outline, List.map_take, List.map_take, same]
  have id := ided.ids place routine found
  have reid := reided.ids place other held
  rw [idBehind] at id reid
  rw [earlier, file, name, owner] at reid
  by_cases among : (first.routines.take place).any (Routine.isNamesake routine.name routine.owner) = true
  · rw [if_pos among] at id reid
    exact Or.inr ⟨_, id, reid⟩
  · rw [if_neg among] at id reid
    exact Or.inl (reid.trans id.symm)

end Extraction

end FlowAtlas
