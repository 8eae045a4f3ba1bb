import FlowAtlas.Proofs.Extraction.Offside
import FlowAtlas.Proofs.Extraction.Runs
import Mathlib.Data.List.Forall2

namespace FlowAtlas.Extraction

def IndentedScan.carried (scan : IndentedScan) : Carried := ⟨scan.opened, scan.brackets, scan.continued⟩

def CodeLine.close (line : CodeLine) (findings : Findings) : Findings :=
  if line.statement then
    (findings.closeFrom line.indent).addImports line.number (Indent.importTargets line.code)
  else findings

def CodeLine.note (line : CodeLine) (findings : Findings) : Findings :=
  (line.close findings).declareIf line.declared? line.number line.indent

def CodeLine.record (line : CodeLine) (findings : Findings) : Findings :=
  findings.recordLine line.code (callText line.declared? line.code) line.raw line.number

structure Alike (first second : Findings) : Prop where
  file : first.file = second.file
  scopes : first.scopes = second.scopes
  routines : first.routines = second.routines
  classes : first.classes = second.classes

theorem notePublic_alike (scan : IndentedScan) (inside : Bool) (raw : List Char) :
    Alike (scan.notePublic inside raw).findings scan.findings := by
  rw [IndentedScan.notePublic]
  split <;> exact ⟨rfl, rfl, rfl, rfl⟩

theorem notePublic_carried (scan : IndentedScan) (inside : Bool) (raw : List Char) :
    (scan.notePublic inside raw).carried = scan.carried := by
  rw [IndentedScan.notePublic]
  split <;> rfl

theorem indented_stepCode_findings (scan : IndentedScan) (carried : Carried) (raw : List Char) (number : Nat)
    (brackets : scan.brackets = carried.brackets) (continued : scan.continued = carried.continued) :
    let line := carried.line number raw
    (scan.stepCode carried.opened.isSome line.code raw number).findings =
      line.record (line.note scan.findings) := by
  intro line
  have begins : scan.beginsStatement carried.opened.isSome = line.statement := by
    simp only [IndentedScan.beginsStatement, line, Carried.line, brackets, continued]
    cases carried.opened <;> simp
  rw [indented_stepCode_eq, begins, CodeLine.record, CodeLine.note, CodeLine.close, CodeLine.declared?]
  cases line.statement <;> rfl

theorem step_findings (scan : IndentedScan) (raw : List Char) (number : Nat) :
    ∃ noted, Alike noted scan.findings ∧ (scan.step raw number).findings =
      if (scan.carried.codeOf raw).isEmpty then noted
      else (scan.carried.line number raw).record ((scan.carried.line number raw).note noted) := by
  let noted := { scan with opened := (indentedCode scan.opened raw).2 }.notePublic scan.opened.isSome
    (Text.trim raw)
  have same := notePublic_carried { scan with opened := (indentedCode scan.opened raw).2 } scan.opened.isSome
    (Text.trim raw)
  refine ⟨noted.findings, notePublic_alike _ _ _, ?_⟩
  rw [indented_step_eq]
  by_cases empty : (scan.carried.codeOf raw).isEmpty = true
  · rw [if_pos empty]
    exact congrArg IndentedScan.findings (if_pos empty)
  · rw [if_neg empty]
    refine (congrArg IndentedScan.findings (if_neg empty)).trans ?_
    exact indented_stepCode_findings noted scan.carried raw number (congrArg Carried.brackets same)
      (congrArg Carried.continued same)

theorem step_carried (scan : IndentedScan) (raw : List Char) (number : Nat) :
    (scan.step raw number).carried = scan.carried.next raw := by
  have same := notePublic_carried { scan with opened := (indentedCode scan.opened raw).2 } scan.opened.isSome
    (Text.trim raw)
  rw [indented_step_eq, Carried.next]
  by_cases empty : (scan.carried.codeOf raw).isEmpty = true
  · rw [if_pos empty]
    exact (congrArg IndentedScan.carried (if_pos empty)).trans same
  · rw [if_neg empty]
    refine (congrArg IndentedScan.carried (if_neg empty)).trans ?_
    rw [indented_stepCode_eq]
    have opened := congrArg Carried.opened same
    have brackets := congrArg Carried.brackets same
    simp only [IndentedScan.carried] at opened brackets
    simp only [IndentedScan.carried, opened, brackets]
    rfl

def Stacked (scopes : List Scope) : Prop := scopes.Pairwise fun inner outer => outer.depth < inner.depth

theorem stacked_dropWhile {scopes : List Scope} (stacked : Stacked scopes) (indent : Nat) :
    scopes.dropWhile (fun scope => indent ≤ scope.depth) = scopes.filter fun scope => scope.depth < indent := by
  -- Closing from the top finds everything that is not indented less.
  induction scopes with
  | nil => rfl
  | cons first outer ih =>
      obtain ⟨deeper, rest⟩ := List.pairwise_cons.mp stacked
      by_cases closed : indent ≤ first.depth
      · rw [List.dropWhile_cons_of_pos (by simpa using closed), List.filter_cons_of_neg (by simpa using closed)]
        exact ih rest
      · rw [List.dropWhile_cons_of_neg (by simpa using closed), List.filter_cons_of_pos (by simpa using closed)]
        congr 1
        refine (List.filter_eq_self.mpr ?_).symm
        intro scope member
        have under := deeper scope member
        simp only [decide_eq_true_eq]
        omega

structure Represents (codes : List CodeLine) (declared : CodeLine) (scope : Scope) : Prop where
  depth : scope.depth = declared.indent
  kind : match scope.kind with
    | .classBody name => declared.className? = some name
    | .routine place => (routineLines codes)[place]? = some declared

variable {codes : List CodeLine} {new : CodeLine}

theorem mem_routineLines {line : CodeLine} :
    line ∈ routineLines codes ↔ line ∈ codes ∧ line.routineName?.isSome :=
  List.mem_filter

theorem routineLines_append :
    routineLines (codes ++ [new]) = routineLines codes ++ if new.routineName?.isSome then [new] else [] := by
  simp [routineLines, List.filter_append, List.filter_cons]

theorem Represents.append {declared : CodeLine} {scope : Scope} (represents : Represents codes declared scope) :
    Represents (codes ++ [new]) declared scope := by
  refine ⟨represents.depth, ?_⟩
  have held := represents.kind
  cases kind : scope.kind with
  | classBody name =>
      rw [kind] at held
      exact held
  | routine place =>
      rw [kind] at held
      obtain ⟨bound, _⟩ := List.getElem?_eq_some_iff.mp held
      simp only [routineLines_append]
      rw [List.getElem?_append_left bound]
      exact held

section stack

variable {opens : List CodeLine} {findings : Findings}
  (represented : List.Forall₂ (Represents codes) opens findings.scopes)

include represented

theorem enclosingClass_eq : findings.enclosingClass? = opens.head?.bind CodeLine.className? := by
  rw [Findings.enclosingClass?]
  generalize findings.scopes = scopes at represented
  cases represented with
  | nil => rfl
  | @cons declared scope _ _ first _ =>
      have held := first.kind
      simp only [List.head?_cons, Option.bind_some]
      cases kind : scope.kind with
      | classBody name =>
          rw [kind] at held
          exact held.symm
      | routine place =>
          rw [kind] at held
          exact (CodeLine.className_of_routineName (mem_routineLines.mp (List.mem_of_getElem? held)).2).symm

theorem innermost_cases :
    findings.innermost? = none ∧ (opens.filter fun line => line.routineName?.isSome).head? = none ∨
      ∃ place declared, findings.innermost? = some place ∧ (routineLines codes)[place]? = some declared ∧
        (opens.filter fun line => line.routineName?.isSome).head? = some declared := by
  rw [Findings.innermost?]
  generalize findings.scopes = scopes at represented
  induction represented with
  | nil => exact Or.inl ⟨rfl, rfl⟩
  | @cons declared scope rest outer first _ ih =>
      have held := first.kind
      cases kind : scope.kind with
      | classBody name =>
          rw [kind] at held
          have other : ¬ declared.routineName?.isSome := by simp [CodeLine.routineName_of_className held]
          have skipped : (declared :: rest).filter (fun line => line.routineName?.isSome) =
              rest.filter fun line => line.routineName?.isSome := List.filter_cons_of_neg other
          rw [List.findSome?_cons, kind, skipped]
          exact ih
      | routine place =>
          rw [kind] at held
          have named := (mem_routineLines.mp (List.mem_of_getElem? held)).2
          have taken : ((declared :: rest).filter fun line => line.routineName?.isSome).head? =
              some declared := by
            rw [List.filter_cons, if_pos named, List.head?_cons]
          refine Or.inr ⟨place, declared, ?_, held, taken⟩
          rw [List.findSome?_cons, kind]

end stack

structure Offside (path : String) (codes lines : List CodeLine) (declared : CodeLine)
    (routine : Routine) : Prop where
  name : declared.routineName? = some routine.name
  file : routine.file = path
  line : routine.line = declared.number
  owner : routine.owner = (scopeAround? codes declared).bind CodeLine.className?
  calls : routine.outgoing = lines.flatMap CodeLine.calls
  decisions : routine.decisions = lines.flatMap fun line => line.decisions path routine.id

/-- Findings that agree with the offside rule on the lines read so far. A last line may have been noted only, so
that its calls and decisions are still missing. -/
structure Follows (path : String) (codes recorded : List CodeLine) (findings : Findings) : Prop where
  file : findings.file = path
  stacked : Stacked findings.scopes
  scopes : List.Forall₂ (Represents codes) (openLines codes) findings.scopes
  routines : List.Forall₂ (fun declared => Offside path codes (linesOf recorded declared) declared)
    (routineLines codes) findings.routines

theorem Follows.alike {path : String} {recorded : List CodeLine} {first second : Findings}
    (follows : Follows path codes recorded second) (alike : Alike first second) :
    Follows path codes recorded first :=
  ⟨alike.file ▸ follows.file, alike.scopes ▸ follows.stacked, alike.scopes ▸ follows.scopes,
    alike.routines ▸ follows.routines⟩

theorem receiver_of_indented {line : CodeLine} {name : String} {kind : RoutineKind} {isAsync exported : Bool}
    {receiver : Option String} {behind : List Char}
    (declared : line.declared? = some (.routine name kind isAsync exported receiver, behind)) :
    receiver = none := by
  rw [CodeLine.declared?, Indent.declaration?] at declared
  split at declared
  · dsimp only at declared
    split at declared
    · cases declared
    · obtain ⟨_, _, same⟩ := Option.map_eq_some_iff.mp declared
      exact (Declaration.routine.inj (Prod.mk.inj same).1).2.2.2.2.symm
  · cases declared

theorem close_scopes {findings : Findings} (stacked : Stacked findings.scopes) (line : CodeLine) :
    (line.close findings).scopes =
      findings.scopes.filter fun scope => !line.statement || scope.depth < line.indent := by
  rw [CodeLine.close]
  cases statement : line.statement with
  | false => simp
  | true =>
      refine (stacked_dropWhile stacked line.indent).trans ?_
      simp

theorem close_file (findings : Findings) (line : CodeLine) : (line.close findings).file = findings.file := by
  rw [CodeLine.close]
  split <;> rfl

theorem close_routines (findings : Findings) (line : CodeLine) :
    (line.close findings).routines = findings.routines := by
  rw [CodeLine.close]
  split <;> rfl

section note

variable {path : String} {findings : Findings} (later : ∀ old ∈ codes, old.number < new.number)
  (follows : Follows path codes codes findings)

include follows

theorem close_represented : List.Forall₂ (Represents (codes ++ [new]))
    ((openLines codes).filter fun declared => !new.statement || declared.indent < new.indent)
    (new.close findings).scopes := by
  have alike : ∀ declared scope, Represents codes declared scope →
      ((!new.statement || decide (declared.indent < new.indent)) = true ↔
        (!new.statement || decide (scope.depth < new.indent)) = true) := by
    intro declared scope represents
    rw [represents.depth]
  rw [close_scopes follows.stacked]
  exact (List.rel_filter alike follows.scopes).imp fun _ _ represents => represents.append

theorem close_stacked : Stacked (new.close findings).scopes := by
  rw [close_scopes follows.stacked]
  exact follows.stacked.sublist List.filter_sublist

theorem close_shallower (statement : new.statement = true) :
    ∀ scope ∈ (new.close findings).scopes, scope.depth < new.indent := by
  intro scope member
  rw [close_scopes follows.stacked] at member
  simpa [statement] using (List.mem_filter.mp member).2

include later

theorem close_offside :
    List.Forall₂ (fun declared => Offside path (codes ++ [new]) (linesOf codes declared) declared)
      (routineLines codes) (new.close findings).routines := by
  have held : ∀ declared ∈ routineLines codes, declared ∈ codes := fun _ member => (mem_routineLines.mp member).1
  rw [close_routines]
  refine ((List.forall₂_and_left _ _).mpr ⟨held, follows.routines⟩).imp ?_
  rintro declared routine ⟨member, offside⟩
  refine ⟨offside.name, offside.file, offside.line, ?_, offside.calls, offside.decisions⟩
  rw [scopeAround_append later member]
  exact offside.owner

theorem note_nothing (declared : new.declared? = none) :
    Follows path (codes ++ [new]) codes (new.note findings) := by
  have lines : routineLines (codes ++ [new]) = routineLines codes := by
    simp [routineLines_append, CodeLine.routineName?, declared]
  rw [CodeLine.note, declared]
  refine ⟨(close_file findings new).trans follows.file, close_stacked follows, ?_, ?_⟩
  · rw [openLines_append later, declared]
    exact close_represented follows
  · rw [lines]
    exact close_offside later follows

theorem note_class {name : String} {exported : Bool} {behind : List Char}
    (declared : new.declared? = some (.classBody name exported, behind)) :
    Follows path (codes ++ [new]) codes (new.note findings) := by
  have statement : new.statement = true := CodeLine.statement_of_declared (by simp [declared])
  have lines : routineLines (codes ++ [new]) = routineLines codes := by
    simp [routineLines_append, CodeLine.routineName?, declared]
  have named : new.className? = some name := by simp [CodeLine.className?, declared]
  rw [CodeLine.note, declared]
  refine ⟨(close_file findings new).trans follows.file, ?_, ?_, ?_⟩
  · exact List.pairwise_cons.mpr ⟨close_shallower follows statement, close_stacked follows⟩
  · rw [openLines_append later, declared]
    exact .cons ⟨rfl, named⟩ (close_represented follows)
  · rw [lines]
    exact close_offside later follows

theorem note_routine {name : String} {kind : RoutineKind} {isAsync exported : Bool} {receiver : Option String}
    {behind : List Char} (declared : new.declared? = some (.routine name kind isAsync exported receiver, behind)) :
    Follows path (codes ++ [new]) codes (new.note findings) := by
  have statement : new.statement = true := CodeLine.statement_of_declared (by simp [declared])
  have named : new.routineName? = some name := by simp [CodeLine.routineName?, declared]
  have lines : routineLines (codes ++ [new]) = routineLines codes ++ [new] := by
    simp [routineLines_append, named]
  have older := close_offside later follows
  have around : (new.close findings).enclosingClass? =
      (scopeAround? (codes ++ [new]) new).bind CodeLine.className? := by
    rw [enclosingClass_eq (close_represented follows), scopeAround_new later statement]
    simp [statement]
  rw [CodeLine.note, declared, receiver_of_indented declared]
  refine ⟨(close_file findings new).trans follows.file, ?_, ?_, ?_⟩
  · exact List.pairwise_cons.mpr ⟨close_shallower follows statement, close_stacked follows⟩
  · rw [openLines_append later, declared]
    refine .cons ⟨rfl, ?_⟩ (close_represented follows)
    simp [lines, ← older.length_eq]
  · rw [lines]
    have file : (new.close findings).file = path := (close_file findings new).trans follows.file
    refine List.rel_append older (.cons ⟨named, file, rfl, around, ?_, ?_⟩ .nil)
    -- The line's own calls are recorded later.
    · rw [linesOf_new later]
      rfl
    · rw [linesOf_new later]
      rfl

theorem note_follows : Follows path (codes ++ [new]) codes (new.note findings) := by
  cases declared : new.declared? with
  | none => exact note_nothing later follows declared
  | some pair =>
      obtain ⟨declaration, behind⟩ := pair
      cases declaration with
      | classBody name exported => exact note_class later follows declared
      | routine name kind isAsync exported receiver => exact note_routine later follows declared

end note

def CodeLine.extend (line : CodeLine) (routine : Routine) : Routine :=
  Findings.withLine routine line.code (callText line.declared? line.code) line.raw line.number

theorem Offside.extend {path : String} {lines : List CodeLine} {declared : CodeLine} {routine : Routine}
    (offside : Offside path codes lines declared routine) (line : CodeLine) :
    Offside path codes (lines ++ [line]) declared (line.extend routine) := by
  refine ⟨offside.name, offside.file, offside.line, offside.owner, ?_, ?_⟩
  · rw [List.flatMap_append, ← offside.calls, List.flatMap_singleton]
    rfl
  · have decided : (line.extend routine).decisions =
        routine.decisions ++ line.decisions routine.file routine.id := rfl
    rw [decided, offside.decisions, offside.file, List.flatMap_append, List.flatMap_singleton]
    rfl

theorem forall₂_modify {α β : Type} {R S : α → β → Prop} {first : List α} {second : List β} {place : Nat}
    {change : β → β} (related : List.Forall₂ R first second)
    (here : ∀ a b, first[place]? = some a → R a b → S a (change b))
    (elsewhere : ∀ i a b, i ≠ place → first[i]? = some a → R a b → S a b) :
    List.Forall₂ S first (second.modify place change) := by
  refine List.forall₂_iff_get.mpr ⟨by simpa using related.length_eq, ?_⟩
  intro i bound within
  have held : R (first.get ⟨i, bound⟩) (second.get ⟨i, by simpa using within⟩) := related.get _ _
  have found : first[i]? = some (first.get ⟨i, bound⟩) := List.getElem?_eq_getElem bound
  simp only [List.get_eq_getElem, List.getElem_modify]
  by_cases same : place = i
  · rw [if_pos same]
    exact here _ _ (same ▸ found) held
  · rw [if_neg same]
    exact elsewhere i _ _ (Ne.symm same) found held

theorem record_follows {path : String} {findings : Findings} (later : ∀ old ∈ codes, old.number < new.number)
    (distinct : (codes ++ [new]).Nodup) (follows : Follows path (codes ++ [new]) codes findings) :
    Follows path (codes ++ [new]) (codes ++ [new]) (new.record findings) := by
  have scopes : (new.record findings).scopes = findings.scopes := Findings.recordLine_scopes _ _ _ _ _
  refine ⟨(Findings.recordLine_file _ _ _ _ _).trans follows.file, scopes ▸ follows.stacked,
    scopes ▸ follows.scopes, ?_⟩
  rcases innermost_cases follows.scopes with ⟨none, unheld⟩ | ⟨place, holder, some, placed, held⟩
  · have unchanged : (new.record findings).routines = findings.routines := by
      rw [CodeLine.record, Findings.recordLine, none]
    rw [unchanged]
    refine follows.routines.imp fun declared routine offside => ?_
    rw [linesOf_append later, routineAt_new later, unheld]
    simpa using offside
  · -- Only the routine that the innermost scope stands for takes the line.
    have changed : (new.record findings).routines = findings.routines.modify place new.extend := by
      rw [CodeLine.record, Findings.recordLine, some]
      rfl
    have single : (routineLines (codes ++ [new])).Nodup := distinct.sublist List.filter_sublist
    have belongs : routineAt? (codes ++ [new]) new = Option.some holder := (routineAt_new later).trans held
    rw [changed]
    refine forall₂_modify follows.routines ?_ ?_
    · intro declared routine found offside
      have same : holder = declared := Option.some.inj (placed.symm.trans found)
      rw [linesOf_append later, belongs, same, if_pos rfl]
      exact offside.extend new
    · intro i declared routine apart found offside
      have other : holder ≠ declared := by
        rintro rfl
        obtain ⟨bound, _⟩ := List.getElem?_eq_some_iff.mp found
        exact apart ((List.getElem?_inj bound single).mp (found.trans placed.symm))
      rw [linesOf_append later, belongs, if_neg fun same => other (Option.some.inj same), List.append_nil]
      exact offside

structure Reached (path : String) (codes : List CodeLine) (number : Nat) (scan : IndentedScan) : Prop where
  numbers : ∀ line ∈ codes, line.number < number
  distinct : codes.Nodup
  follows : Follows path codes codes scan.findings

theorem reached_step {path : String} {number : Nat} {scan : IndentedScan}
    (reached : Reached path codes number scan) (raw : List Char) :
    Reached path
      (codes ++ if (scan.carried.codeOf raw).isEmpty then [] else [scan.carried.line number raw])
      (number + 1) (scan.step raw number) := by
  obtain ⟨noted, alike, findings⟩ := step_findings scan raw number
  have follows := reached.follows.alike alike
  by_cases empty : (scan.carried.codeOf raw).isEmpty = true
  · rw [if_pos empty] at findings ⊢
    rw [List.append_nil]
    refine ⟨?_, reached.distinct, findings ▸ follows⟩
    exact fun line member => Nat.lt_succ_of_lt (reached.numbers line member)
  · rw [if_neg empty] at findings ⊢
    let new := scan.carried.line number raw
    have later : ∀ old ∈ codes, old.number < new.number := reached.numbers
    have distinct : (codes ++ [new]).Nodup :=
      List.nodup_append.mpr ⟨reached.distinct, by simp, fun old member line last same =>
        new_notMem later (List.mem_singleton.mp last ▸ same ▸ member)⟩
    refine ⟨?_, distinct, ?_⟩
    · intro line member
      exact Nat.lt_succ_of_le (number_le_new later line member)
    · rw [findings]
      exact record_follows later distinct (note_follows later follows)

theorem reached_scan {path : String} (lines : List (List Char)) :
    ∀ (codes : List CodeLine) (number : Nat) (scan : IndentedScan), Reached path codes number scan →
      Reached path (codes ++ codeLines scan.carried number lines) (number + lines.length)
        (scanIndented scan number lines) := by
  induction lines with
  | nil =>
      intro codes number scan reached
      rw [codeLines, List.append_nil]
      exact reached
  | cons raw rest ih =>
      intro codes number scan reached
      have later := ih _ _ _ (reached_step reached raw)
      rw [step_carried, List.append_assoc, Nat.add_assoc, Nat.add_comm 1] at later
      exact later

theorem reached_after (path : String) (lines : List (List Char)) (count : Nat) :
    Reached path (codeLines {} 1 (lines.take count)) (1 + (lines.take count).length)
      (indentedAfter path lines count) := by
  have start : Reached path [] 1 { findings := { file := path } } :=
    ⟨by simp, List.nodup_nil, rfl, .nil, .nil, .nil⟩
  exact reached_scan (lines.take count) [] 1 _ start

/-- Routines of an indented file own what the offside rule gives them, and the stack is indented inward. -/
theorem ofText_offside (path text : String) :
    let lines := Text.lines text.toList
    let codes := codeLines {} 1 lines
    List.Forall₂ (fun declared => Offside path codes (linesOf codes declared) declared) (routineLines codes)
      (ofText path text .indent).routines ∧
    ∀ count, Stacked (indentedAfter path lines count).findings.scopes := by
  intro lines codes
  refine ⟨?_, fun count => (reached_after path lines count).follows.stacked⟩
  have routines := (reached_after path lines lines.length).follows.routines
  rw [List.take_length, indentedAfter_beyond path (Nat.le_refl _)] at routines
  rw [ofText, Findings.finish, List.forall₂_map_right_iff]
  refine routines.imp fun declared routine offside => ?_
  exact ⟨offside.name, offside.file, offside.line, offside.owner, offside.calls, offside.decisions⟩

example :
    let codes := codeLines {} 1 (Text.lines "def f(x,\n  y):\n  g(x)\nh()\n".toList)
    codes.map (fun line => (routineAt? codes line).map CodeLine.number) = [some 1, some 1, some 1, none] := by
  decide +kernel

end FlowAtlas.Extraction
