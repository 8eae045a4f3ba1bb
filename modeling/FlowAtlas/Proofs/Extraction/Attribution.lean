import FlowAtlas.Proofs.Extraction.CalledNames
import FlowAtlas.Proofs.Extraction.DeclaredNames
import FlowAtlas.Proofs.Extraction.Growth
import FlowAtlas.Proofs.Extraction.Legible
import FlowAtlas.Proofs.Extraction.Nesting
import FlowAtlas.Proofs.Extraction.OffsideScan

/-! Each line of a file belongs to one routine at most, which takes all calls of the line and its decision. -/

namespace FlowAtlas

def Routine.linesRead (routine : Routine) : List Int :=
  routine.outgoing.map (·.line) ++ routine.decisions.map (·.line)

namespace Extraction

def Declaration.name : Declaration → String
  | .classBody name _ => name
  | .routine name _ _ _ _ => name

structure ReadLine where
  number : Nat
  raw : List Char
  code : List Char
  declared? : Option (Declaration × List Char)

namespace ReadLine

def called (line : ReadLine) : List String :=
  ((calledWords false (callText line.declared? line.code)).map String.ofList).filter fun name => !isReserved name

def calls (line : ReadLine) : List CallSite := line.called.map fun callee => ⟨callee, line.number⟩

def decisions (line : ReadLine) (file owner : String) : List Decision :=
  (Findings.decisionOf? file owner line.code line.raw line.number).toList

def extend (line : ReadLine) (routine : Routine) : Routine :=
  Findings.withLine routine line.code (callText line.declared? line.code) line.raw line.number

def record (line : ReadLine) (findings : Findings) : Findings :=
  findings.recordLine line.code (callText line.declared? line.code) line.raw line.number

theorem extend_outgoing (line : ReadLine) (routine : Routine) :
    (line.extend routine).outgoing = routine.outgoing ++ line.calls := by
  rw [calls, called, ← calledNames_eq]
  rfl

end ReadLine

def bracedLines (braces : Braces) : Bool → Nat → List (List Char) → List ReadLine
  | _, _, [] => []
  | inComment, number, raw :: rest =>
    let (code, stillOpen) := bracedCode inComment raw
    ⟨number, raw, Text.trim code, braces.declaration? (Text.trim code)⟩ ::
      bracedLines braces stillOpen (number + 1) rest

def indentedLines : Carried → Nat → List (List Char) → List ReadLine
  | _, _, [] => []
  | carried, number, raw :: rest =>
    let line := carried.line number raw
    ⟨number, raw, line.code, line.declared?⟩ :: indentedLines (carried.next raw) (number + 1) rest

def readLines (dialect : Dialect) (lines : List (List Char)) : List ReadLine :=
  match dialect with
  | .brace => bracedLines .literal false 1 lines
  | .generic => bracedLines .typed false 1 lines
  | .indent => indentedLines {} 1 lines

abbrev Ledger := List (ReadLine × Option Nat)

def share (ledger : Ledger) (place : Nat) : List ReadLine :=
  (ledger.filter fun entry => entry.2 == some place).map (·.1)

theorem share_append (ledger : Ledger) (line : ReadLine) (holder : Option Nat) (place : Nat) :
    share (ledger ++ [(line, holder)]) place =
      share ledger place ++ if holder = some place then [line] else [] := by
  by_cases here : holder = some place <;> simp [share, here]

theorem mem_share {ledger : Ledger} {line : ReadLine} {place : Nat} :
    line ∈ share ledger place ↔ (line, some place) ∈ ledger := by
  simp only [share, List.mem_map, List.mem_filter, beq_iff_eq]
  constructor
  · rintro ⟨⟨other, holder⟩, ⟨member, rfl⟩, rfl⟩
    exact member
  · exact fun member => ⟨_, ⟨member, rfl⟩, rfl⟩

/-- A routine with the calls and the decisions of some lines, none of them in front of its own. -/
structure Holds (lines : List ReadLine) (routine : Routine) : Prop where
  calls : routine.outgoing = lines.flatMap ReadLine.calls
  decisions : routine.decisions = lines.flatMap fun line => line.decisions routine.file routine.id
  begins : ∀ line ∈ lines, routine.line ≤ line.number

theorem Holds.extend {lines : List ReadLine} {routine : Routine} (holds : Holds lines routine) {line : ReadLine}
    (begins : routine.line ≤ line.number) : Holds (lines ++ [line]) (line.extend routine) := by
  refine ⟨?_, ?_, ?_⟩
  · rw [line.extend_outgoing, holds.calls, List.flatMap_append, List.flatMap_singleton]
  · have decided : (line.extend routine).decisions =
        routine.decisions ++ line.decisions routine.file routine.id := rfl
    rw [decided, holds.decisions, List.flatMap_append, List.flatMap_singleton]
    rfl
  · intro other member
    rcases List.mem_append.mp member with old | new
    · exact holds.begins other old
    · rw [List.mem_singleton.mp new]
      exact begins

/-- The routines found so far hold the lines that the ledger gives them, each its own line among them. -/
structure Booked (ledger : Ledger) (findings : Findings) : Prop where
  placed : ∀ scope ∈ findings.scopes, ∀ place, scope.kind = .routine place → place < findings.routines.length
  known : ∀ line place, (line, some place) ∈ ledger → place < findings.routines.length
  holds : ∀ (place : Nat) (routine : Routine), findings.routines[place]? = some routine →
    Holds (share ledger place) routine ∧ ∃ line ∈ share ledger place, routine.line = line.number

section steps

variable {ledger : Ledger} {first second findings : Findings} {line : ReadLine}

theorem Booked.alike (booked : Booked ledger first) (routines : second.routines = first.routines)
    (scopes : ∀ scope ∈ second.scopes, ∃ before ∈ first.scopes, before.kind = scope.kind) :
    Booked ledger second := by
  refine ⟨?_, routines ▸ booked.known, routines ▸ booked.holds⟩
  intro scope member place kind
  obtain ⟨before, held, same⟩ := scopes scope member
  rw [routines]
  exact booked.placed before held place (same.trans kind)

theorem Booked.pass (booked : Booked ledger findings) (line : ReadLine) :
    Booked (ledger ++ [(line, none)]) findings := by
  have shares : ∀ place, share (ledger ++ [(line, none)]) place = share ledger place := by
    intro place
    simp [share_append]
  refine ⟨booked.placed, ?_, fun place => (shares place).symm ▸ booked.holds place⟩
  intro other place member
  exact booked.known other place (by simpa using member)

theorem innermost_scope {place : Nat} (inner : findings.innermost? = some place) :
    ∃ scope ∈ findings.scopes, scope.kind = .routine place := by
  obtain ⟨scope, member, found⟩ := List.exists_of_findSome?_eq_some inner
  refine ⟨scope, member, ?_⟩
  split at found
  · rename_i other kind
    rw [kind, Option.some.inj found]
  · cases found

theorem Booked.line_le (booked : Booked ledger findings) (later : ∀ entry ∈ ledger, entry.1.number < line.number)
    {place : Nat} {routine : Routine} (found : findings.routines[place]? = some routine) :
    routine.line ≤ line.number := by
  obtain ⟨own, member, same⟩ := (booked.holds place routine found).2
  have before := later _ (mem_share.mp member)
  rw [same]
  exact_mod_cast Nat.le_of_lt before

theorem Booked.record (booked : Booked ledger findings) (later : ∀ entry ∈ ledger, entry.1.number < line.number) :
    Booked (ledger ++ [(line, findings.innermost?)]) (line.record findings) := by
  -- A line goes to the innermost routine that is open.
  cases inner : findings.innermost? with
  | none =>
      have same : line.record findings = findings := by rw [ReadLine.record, Findings.recordLine, inner]
      rw [same]
      exact booked.pass line
  | some place =>
      obtain ⟨scope, member, kind⟩ := innermost_scope inner
      have bound := booked.placed scope member place kind
      have routines : (line.record findings).routines = findings.routines.modify place line.extend := by
        rw [ReadLine.record, Findings.recordLine, inner]
        rfl
      have scopes : (line.record findings).scopes = findings.scopes := Findings.recordLine_scopes _ _ _ _ _
      refine ⟨?_, ?_, ?_⟩
      · rw [scopes, routines, List.length_modify]
        exact booked.placed
      · intro other holder member
        rw [routines, List.length_modify]
        rcases List.mem_append.mp member with old | new
        · exact booked.known other holder old
        · obtain ⟨_, same⟩ := Prod.mk.inj (List.mem_singleton.mp new)
          rw [Option.some.inj same]
          exact bound
      · -- Only the holder has grown, and by the line that its share has grown by.
        intro here routine found
        rw [routines, List.getElem?_modify] at found
        obtain ⟨before, held, same⟩ := Option.map_eq_some_iff.mp found
        obtain ⟨holds, own, listed, lined⟩ := booked.holds here before held
        rw [share_append]
        split at same
        · rename_i there
          rw [← same, there, if_pos rfl]
          refine ⟨holds.extend (booked.line_le later held), own, List.mem_append_left _ listed, lined⟩
        · rename_i elsewhere
          have other : ¬ some place = some here := fun equal => elsewhere (Option.some.inj equal)
          rw [← same, if_neg other, List.append_nil]
          exact ⟨holds, own, listed, lined⟩

theorem Booked.openClass (booked : Booked ledger findings) (name : String) (number depth : Nat) (exported : Bool) :
    Booked ledger (findings.openClass name number depth exported) := by
  refine ⟨?_, booked.known, booked.holds⟩
  intro scope member place kind
  rcases List.mem_cons.mp member with rfl | old
  · cases kind
  · exact booked.placed scope old place kind

theorem Booked.openRoutine (booked : Booked ledger findings) (name : String) (depth : Nat) (kind : RoutineKind)
    (isAsync exported : Bool) (receiver : Option String) :
    Booked (ledger ++ [(line, some findings.routines.length)])
      (line.record (findings.openRoutine name line.number depth kind isAsync exported receiver)) := by
  let opened := findings.openRoutine name line.number depth kind isAsync exported receiver
  obtain ⟨fresh, added, empty, lined⟩ : ∃ fresh : Routine, opened.routines = findings.routines ++ [fresh] ∧
      Holds [] fresh ∧ fresh.line = line.number := ⟨_, rfl, ⟨rfl, rfl, by simp⟩, rfl⟩
  have routines : (line.record opened).routines = findings.routines ++ [line.extend fresh] := by
    have inner : opened.innermost? = some findings.routines.length := rfl
    have changed : (line.record opened).routines = opened.routines.modify findings.routines.length line.extend := by
      rw [ReadLine.record, Findings.recordLine, inner]
      rfl
    rw [changed, added, List.modify_eq_take_drop, List.take_left, List.drop_left]
    rfl
  have scopes : (line.record opened).scopes = opened.scopes := Findings.recordLine_scopes _ _ _ _ _
  -- No line can have gone to the place of the new routine before.
  have unshared : share ledger findings.routines.length = [] := by
    rw [List.eq_nil_iff_forall_not_mem]
    exact fun other member => Nat.lt_irrefl _ (booked.known other _ (mem_share.mp member))
  refine ⟨?_, ?_, ?_⟩
  · intro scope member place kind
    rw [routines, List.length_append, List.length_singleton]
    rw [scopes] at member
    rcases List.mem_cons.mp member with rfl | old
    · cases kind
      exact Nat.lt_succ_self _
    · exact Nat.lt_succ_of_lt (booked.placed scope old place kind)
  · intro other place member
    rw [routines, List.length_append, List.length_singleton]
    rcases List.mem_append.mp member with old | new
    · exact Nat.lt_succ_of_lt (booked.known other place old)
    · obtain ⟨_, same⟩ := Prod.mk.inj (List.mem_singleton.mp new)
      rw [Option.some.inj same]
      exact Nat.lt_succ_self _
  · intro place routine found
    rw [routines] at found
    rw [share_append]
    by_cases bound : place < findings.routines.length
    · have other : ¬ some findings.routines.length = some place :=
        fun equal => Nat.lt_irrefl _ (Option.some.inj equal ▸ bound)
      rw [List.getElem?_append_left bound] at found
      rw [if_neg other, List.append_nil]
      exact booked.holds place routine found
    · obtain ⟨last, same⟩ : place = findings.routines.length ∧ line.extend fresh = routine := by
        rw [List.getElem?_append_right (Nat.not_lt.mp bound), List.getElem?_singleton] at found
        split at found
        · exact ⟨by omega, Option.some.inj found⟩
        · cases found
      rw [last, if_pos rfl, unshared, ← same]
      exact ⟨empty.extend (Int.le_of_eq lined), line, by simp, lined⟩

theorem Booked.read (booked : Booked ledger findings) (line : ReadLine)
    (later : ∀ entry ∈ ledger, entry.1.number < line.number) (depth : Nat) : ∃ holder,
      Booked (ledger ++ [(line, holder)]) (line.record (findings.declareIf line.declared? line.number depth)) := by
  rcases declared : line.declared? with _ | ⟨declaration, behind⟩
  · exact ⟨_, booked.record later⟩
  · cases declaration with
    | classBody name exported => exact ⟨_, (booked.openClass name line.number depth exported).record later⟩
    | routine name kind isAsync exported receiver =>
        exact ⟨_, booked.openRoutine name depth kind isAsync exported receiver⟩

end steps

theorem numbers_append {ledger : Ledger} {number : Nat} (later : ∀ entry ∈ ledger, entry.1.number < number)
    {line : ReadLine} (next : line.number = number) (holder : Option Nat) :
    ∀ entry ∈ ledger ++ [(line, holder)], entry.1.number < number + 1 := by
  intro entry member
  rcases List.mem_append.mp member with old | new
  · exact Nat.lt_succ_of_lt (later entry old)
  · rw [List.mem_singleton.mp new, next]
    exact Nat.lt_succ_self number

theorem dropWaiting_booked {ledger : Ledger} {findings : Findings} (booked : Booked ledger findings)
    (previous code : List Char) : Booked ledger (findings.dropWaiting previous code) :=
  booked.alike (dropWaiting_routines _ _ _) fun scope member =>
    ⟨scope, (dropWaiting_scopes _ _ _).subset member, rfl⟩

theorem closeEnded_booked {ledger : Ledger} {findings : Findings} (booked : Booked ledger findings)
    (code : List Char) (line depth : Nat) : Booked ledger (findings.closeEnded code line depth) := by
  refine booked.alike rfl ?_
  intro scope member
  rcases mem_startBody ((List.dropWhile_sublist _).subset member) with held | ⟨_, before, held, rfl⟩
  · exact ⟨scope, held, rfl⟩
  · exact ⟨before, held, rfl⟩

def BracedScan.read (braces : Braces) (scan : BracedScan) (raw : List Char) (number : Nat) : ReadLine :=
  ⟨number, raw, scan.codeOf raw, braces.declaration? (scan.codeOf raw)⟩

theorem step_booked {braces : Braces} {scan : BracedScan} {ledger : Ledger} (booked : Booked ledger scan.findings)
    {number : Nat} (later : ∀ entry ∈ ledger, entry.1.number < number) (raw : List Char) : ∃ holder,
      Booked (ledger ++ [(scan.read braces raw number, holder)]) (scan.step braces raw number).findings := by
  rcases BracedScan.step_cases braces scan raw number with ⟨_, scopes, routines⟩ | ⟨_, findings⟩
  · exact ⟨none, (booked.alike routines fun scope member => ⟨scope, scopes ▸ member, rfl⟩).pass _⟩
  · let waited := scan.findings.dropWaiting scan.previous (scan.codeOf raw)
    have noted : Booked ledger (braces.noteImports waited (Text.trim raw) number) :=
      (dropWaiting_booked booked _ _).alike (noteImports_routines _ _ _ _) fun scope member =>
        ⟨scope, noteImports_scopes braces waited (Text.trim raw) number ▸ member, rfl⟩
    obtain ⟨holder, read⟩ := noted.read (scan.read braces raw number) later scan.depth
    rw [findings]
    exact ⟨holder, closeEnded_booked read _ _ _⟩

theorem scanBraced_booked (braces : Braces) (lines : List (List Char)) :
    ∀ (ledger : Ledger) (number : Nat) (scan : BracedScan), Booked ledger scan.findings →
      (∀ entry ∈ ledger, entry.1.number < number) →
        ∃ full : Ledger, full.map (·.1) = ledger.map (·.1) ++ bracedLines braces scan.inComment number lines ∧
          Booked full (scanBraced braces scan number lines).findings := by
  induction lines with
  | nil => exact fun ledger _ _ booked _ => ⟨ledger, by simp [bracedLines], booked⟩
  | cons raw rest ih =>
      intro ledger number scan booked later
      obtain ⟨holder, step⟩ := step_booked booked later raw
      obtain ⟨full, lines, done⟩ := ih _ (number + 1) _ step (numbers_append later rfl holder)
      refine ⟨full, ?_, done⟩
      rw [lines, step_inComment, List.map_append, List.append_assoc]
      rfl

def IndentedScan.read (scan : IndentedScan) (raw : List Char) (number : Nat) : ReadLine :=
  let line := scan.carried.line number raw
  ⟨number, raw, line.code, line.declared?⟩

theorem indented_step_booked {scan : IndentedScan} {ledger : Ledger} (booked : Booked ledger scan.findings)
    {number : Nat} (later : ∀ entry ∈ ledger, entry.1.number < number) (raw : List Char) : ∃ holder,
      Booked (ledger ++ [(scan.read raw number, holder)]) (scan.step raw number).findings := by
  let line := scan.carried.line number raw
  obtain ⟨noted, alike, findings⟩ := step_findings scan raw number
  have same : Booked ledger noted :=
    booked.alike alike.routines fun scope member => ⟨scope, alike.scopes ▸ member, rfl⟩
  rw [findings]
  split
  · exact ⟨none, same.pass _⟩
  · have closed : Booked ledger (line.close noted) := by
      refine same.alike (close_routines _ _) ?_
      intro scope member
      refine ⟨scope, ?_, rfl⟩
      rw [CodeLine.close] at member
      split at member
      · exact (List.dropWhile_sublist _).subset member
      · exact member
    exact closed.read (scan.read raw number) later line.indent

theorem scanIndented_booked (lines : List (List Char)) :
    ∀ (ledger : Ledger) (number : Nat) (scan : IndentedScan), Booked ledger scan.findings →
      (∀ entry ∈ ledger, entry.1.number < number) →
        ∃ full : Ledger, full.map (·.1) = ledger.map (·.1) ++ indentedLines scan.carried number lines ∧
          Booked full (scanIndented scan number lines).findings := by
  induction lines with
  | nil => exact fun ledger _ _ booked _ => ⟨ledger, by simp [indentedLines], booked⟩
  | cons raw rest ih =>
      intro ledger number scan booked later
      obtain ⟨holder, step⟩ := indented_step_booked booked later raw
      obtain ⟨full, lines, done⟩ := ih _ (number + 1) _ step (numbers_append later rfl holder)
      refine ⟨full, ?_, done⟩
      rw [lines, step_carried, List.map_append, List.append_assoc]
      rfl

theorem findingsOf_booked (path : String) (dialect : Dialect) (lines : List (List Char)) :
    ∃ ledger : Ledger, ledger.map (·.1) = readLines dialect lines ∧ Booked ledger (findingsOf path dialect lines) := by
  have start : Booked [] { file := path } := ⟨by simp, by simp, by simp⟩
  cases dialect with
  | brace => exact scanBraced_booked .literal lines [] 1 { findings := { file := path } } start (by simp)
  | generic => exact scanBraced_booked .typed lines [] 1 { findings := { file := path } } start (by simp)
  | indent => exact scanIndented_booked lines [] 1 { findings := { file := path } } start (by simp)

theorem bracedLines_numbers (braces : Braces) (lines : List (List Char)) : ∀ (inComment : Bool) (number : Nat),
    (bracedLines braces inComment number lines).map (·.number) = List.range' number lines.length := by
  induction lines with
  | nil => exact fun _ _ => rfl
  | cons raw rest ih => exact fun _ number => congrArg (number :: ·) (ih _ (number + 1))

theorem indentedLines_numbers (lines : List (List Char)) : ∀ (carried : Carried) (number : Nat),
    (indentedLines carried number lines).map (·.number) = List.range' number lines.length := by
  induction lines with
  | nil => exact fun _ _ => rfl
  | cons raw rest ih => exact fun _ number => congrArg (number :: ·) (ih _ (number + 1))

theorem readLines_sorted (dialect : Dialect) (lines : List (List Char)) :
    (readLines dialect lines).Pairwise fun first second => first.number < second.number := by
  have numbers : (readLines dialect lines).map (·.number) = List.range' 1 lines.length := by
    cases dialect with
    | brace => exact bracedLines_numbers .literal lines false 1
    | generic => exact bracedLines_numbers .typed lines false 1
    | indent => exact indentedLines_numbers lines {} 1
  rw [← List.pairwise_map (f := ReadLine.number) (R := (· < ·)), numbers]
  exact List.pairwise_lt_range'

namespace ReadLine

theorem mem_calls {line : ReadLine} {call : CallSite} (member : call ∈ line.calls) : call.line = line.number := by
  obtain ⟨_, _, rfl⟩ := List.mem_map.mp member
  rfl

theorem mem_decisions {line : ReadLine} {file owner : String} {decision : Decision}
    (member : decision ∈ line.decisions file owner) :
    decision.line = line.number ∧ decision.owner = some owner := by
  obtain ⟨kind, _, rfl⟩ := Option.map_eq_some_iff.mp (Option.mem_toList.mp member)
  exact ⟨rfl, rfl⟩

end ReadLine

theorem filter_flatMap_line {α : Type} {lines : List ReadLine} (give : ReadLine → List α) (lineOf : α → Int)
    (lined : ∀ line ∈ lines, ∀ item ∈ give line, lineOf item = line.number)
    (sorted : lines.Pairwise fun first second => first.number < second.number) {line : ReadLine}
    (member : line ∈ lines) :
    (lines.flatMap give).filter (fun item => lineOf item == (line.number : Int)) = give line := by
  have others : ∀ other ∈ lines, other.number ≠ line.number →
      (give other).filter (fun item => lineOf item == (line.number : Int)) = [] := by
    intro other among apart
    rw [List.filter_eq_nil_iff]
    intro item given same
    rw [beq_iff_eq, lined other among item given] at same
    exact apart (Int.ofNat_inj.mp same)
  have here : (give line).filter (fun item => lineOf item == (line.number : Int)) = give line :=
    List.filter_eq_self.mpr fun item given => beq_iff_eq.mpr (lined line member item given)
  obtain ⟨front, back, rfl⟩ := List.append_of_mem member
  obtain ⟨_, behind, before⟩ := List.pairwise_append.mp sorted
  have lower : ∀ other ∈ front, (give other).filter (fun item => lineOf item == (line.number : Int)) = [] :=
    fun other among => others other (by simp [among]) (Nat.ne_of_lt (before other among line (by simp)))
  have upper : ∀ other ∈ back, (give other).filter (fun item => lineOf item == (line.number : Int)) = [] :=
    fun other among => others other (by simp [among]) (Nat.ne_of_gt ((List.pairwise_cons.mp behind).1 other among))
  rw [List.filter_flatMap, List.flatMap_append, List.flatMap_cons, here, List.flatMap_eq_nil_iff.mpr lower,
    List.flatMap_eq_nil_iff.mpr upper, List.nil_append, List.append_nil]

/-- What a routine has of the lines of its file: on each line that it has anything from, all calls and the decision
of the line, in the order of the lines, from its own line on. -/
structure Owns (lines : List ReadLine) (routine : Routine) : Prop where
  numbered : ∀ number ∈ routine.linesRead, ∃ line ∈ lines, number = line.number
  calls : ∀ line ∈ lines, routine.line = line.number ∨ (line.number : Int) ∈ routine.linesRead →
    (routine.outgoing.filter fun call => call.line == (line.number : Int)).map (·.callee) = line.called
  decisions : ∀ line ∈ lines, routine.line = line.number ∨ (line.number : Int) ∈ routine.linesRead →
    (routine.decisions.filter fun decision => decision.line == (line.number : Int)) =
      line.decisions routine.file routine.id
  callOrder : routine.outgoing.Pairwise fun first second => first.line ≤ second.line
  decisionOrder : routine.decisions.Pairwise fun first second => first.line < second.line
  begins : ∀ number ∈ routine.linesRead, routine.line ≤ number
  owner : ∀ decision ∈ routine.decisions, decision.owner = some routine.id
  weight : routine.Weighed

section owns

variable {ledger : Ledger} {findings : Findings} (booked : Booked ledger findings)
  (sorted : (ledger.map (·.1)).Pairwise fun first second => first.number < second.number)

theorem Holds.mem_linesRead {lines : List ReadLine} {routine : Routine} (holds : Holds lines routine) {number : Int}
    (read : number ∈ routine.linesRead) : ∃ line ∈ lines, number = line.number := by
  rcases List.mem_append.mp read with member | member
  · obtain ⟨call, called, rfl⟩ := List.mem_map.mp member
    rw [holds.calls] at called
    obtain ⟨line, among, given⟩ := List.mem_flatMap.mp called
    exact ⟨line, among, line.mem_calls given⟩
  · obtain ⟨decision, decided, rfl⟩ := List.mem_map.mp member
    rw [holds.decisions] at decided
    obtain ⟨line, among, given⟩ := List.mem_flatMap.mp decided
    exact ⟨line, among, (line.mem_decisions given).1⟩

theorem share_sublist (ledger : Ledger) (place : Nat) : (share ledger place).Sublist (ledger.map (·.1)) :=
  List.filter_sublist.map _

include sorted

theorem entry_eq {first second : ReadLine × Option Nat} (early : first ∈ ledger) (late : second ∈ ledger)
    (same : first.1.number = second.1.number) : first = second := by
  have distinct : (ledger.map fun entry => entry.1.number).Nodup := by
    rw [List.pairwise_map] at sorted
    exact List.pairwise_map.mpr (sorted.imp Nat.ne_of_lt)
  exact List.inj_on_of_nodup_map distinct early late same

include booked

theorem Booked.owns {place : Nat} {routine : Routine} (found : findings.routines[place]? = some routine)
    (weight : routine.Weighed) : Owns (ledger.map (·.1)) routine := by
  obtain ⟨holds, own, held, lined⟩ := booked.holds place routine found
  have ordered := sorted.sublist (share_sublist ledger place)
  have lines := (share_sublist ledger place).subset
  have listed : ∀ line ∈ ledger.map (·.1), routine.line = line.number ∨ (line.number : Int) ∈ routine.linesRead →
      line ∈ share ledger place := by
    intro line member reads
    obtain ⟨other, shared, same⟩ : ∃ other ∈ share ledger place, line.number = other.number := by
      rcases reads with declared | read
      · exact ⟨own, held, Int.ofNat_inj.mp (declared.symm.trans lined)⟩
      · obtain ⟨other, shared, same⟩ := holds.mem_linesRead read
        exact ⟨other, shared, Int.ofNat_inj.mp same⟩
    obtain ⟨entry, among, rfl⟩ := List.mem_map.mp member
    rw [entry_eq sorted among (mem_share.mp shared) same]
    exact shared
  refine ⟨?_, ?_, ?_, ?_, ?_, ?_, ?_, weight⟩
  · intro number read
    obtain ⟨line, shared, same⟩ := holds.mem_linesRead read
    exact ⟨line, lines shared, same⟩
  · intro line member reads
    have only := filter_flatMap_line ReadLine.calls CallSite.line (fun other _ _ given => other.mem_calls given)
      ordered (listed line member reads)
    rw [holds.calls, only, ReadLine.calls, List.map_map]
    exact List.map_id _
  · intro line member reads
    have only := filter_flatMap_line (fun line => line.decisions routine.file routine.id) Decision.line
      (fun other _ _ given => (other.mem_decisions given).1) ordered (listed line member reads)
    rw [holds.decisions]
    exact only
  · rw [holds.calls]
    refine List.pairwise_flatMap.mpr ⟨?_, ordered.imp ?_⟩
    · intro line _
      refine List.pairwise_of_forall_mem_list fun first early second late => ?_
      exact Int.le_of_eq ((line.mem_calls early).trans (line.mem_calls late).symm)
    · intro before behind less first early second late
      rw [before.mem_calls early, behind.mem_calls late]
      exact Int.ofNat_le.mpr (Nat.le_of_lt less)
  · rw [holds.decisions]
    refine List.pairwise_flatMap.mpr ⟨?_, ordered.imp ?_⟩
    · intro line _
      rw [ReadLine.decisions]
      cases Findings.decisionOf? routine.file routine.id line.code line.raw line.number <;> simp
    · intro before behind less first early second late
      rw [(before.mem_decisions early).1, (behind.mem_decisions late).1]
      exact Int.ofNat_lt.mpr less
  · intro number read
    obtain ⟨line, shared, rfl⟩ := holds.mem_linesRead read
    exact holds.begins line shared
  · intro decision member
    rw [holds.decisions] at member
    obtain ⟨line, _, given⟩ := List.mem_flatMap.mp member
    exact (line.mem_decisions given).2

theorem Booked.disjoint :
    findings.routines.Pairwise fun first second => first.linesRead.Disjoint second.linesRead := by
  rw [List.pairwise_iff_getElem]
  intro i j early late less number first second
  obtain ⟨line, here, same⟩ := (booked.holds i _ (List.getElem?_eq_getElem early)).1.mem_linesRead first
  obtain ⟨other, there, equal⟩ := (booked.holds j _ (List.getElem?_eq_getElem late)).1.mem_linesRead second
  have numbers : line.number = other.number := Int.ofNat_inj.mp (same.symm.trans equal)
  have entries := entry_eq sorted (mem_share.mp here) (mem_share.mp there) numbers
  have places : i = j := Option.some.inj (Prod.mk.inj entries).2
  omega

end owns

def ReadLine.Splits (line : ReadLine) : Prop :=
  ∀ declaration behind, line.declared? = some (declaration, behind) →
    ∃ front, line.code = front ++ (declaration.name.toList ++ behind)

theorem subject_split {pattern : Pattern} {code : List Char} {found : Pattern.Match}
    (searched : pattern.search? code = some found) :
    ∃ front, code = front ++ ((String.ofList found.subject).toList ++ found.afterSubject) := by
  rw [String.toList_ofList]
  exact Pattern.search_split searched

theorem braced_splits (braces : Braces) (number : Nat) (raw code : List Char) :
    (ReadLine.mk number raw code (braces.declaration? code)).Splits := by
  intro declaration behind declared
  rw [Braces.declaration?] at declared
  split at declared
  · rename_i found matched
    obtain ⟨rfl, rfl⟩ := Prod.mk.inj (Option.some.inj declared)
    obtain ⟨_, _, searched⟩ := declaredClass_search matched
    exact subject_split searched
  · obtain ⟨⟨form, found⟩, matched, same⟩ := Option.map_eq_some_iff.mp declared
    obtain ⟨rfl, rfl⟩ := Prod.mk.inj same
    have named : (braces.routineOf code form found).name = String.ofList found.subject := by cases braces <;> rfl
    obtain ⟨_, _, searched⟩ := declaredRoutine_search matched
    rw [named]
    exact subject_split searched

theorem indented_splits (line : CodeLine) (number : Nat) (raw : List Char) :
    (ReadLine.mk number raw line.code line.declared?).Splits := by
  intro declaration behind declared
  dsimp only at declared
  rw [CodeLine.declared?] at declared
  split at declared
  · rw [Indent.declaration?] at declared
    split at declared
    · rename_i found matched
      obtain ⟨rfl, rfl⟩ := Prod.mk.inj (Option.some.inj declared)
      obtain ⟨_, _, searched⟩ := declaredClass_search matched
      exact subject_split searched
    · obtain ⟨⟨form, found⟩, matched, same⟩ := Option.map_eq_some_iff.mp declared
      obtain ⟨rfl, rfl⟩ := Prod.mk.inj same
      obtain ⟨_, _, searched⟩ := declaredRoutine_search matched
      exact subject_split searched
  · cases declared

theorem bracedLines_split (braces : Braces) (lines : List (List Char)) : ∀ (inComment : Bool) (number : Nat),
    ∀ line ∈ bracedLines braces inComment number lines, line.Splits := by
  induction lines with
  | nil => exact fun _ _ => by simp [bracedLines]
  | cons raw rest ih => exact fun _ number => List.forall_mem_cons.mpr ⟨braced_splits braces _ _ _, ih _ (number + 1)⟩

theorem indentedLines_split (lines : List (List Char)) : ∀ (carried : Carried) (number : Nat),
    ∀ line ∈ indentedLines carried number lines, line.Splits := by
  induction lines with
  | nil => exact fun _ _ => by simp [indentedLines]
  | cons raw rest ih => exact fun _ number => List.forall_mem_cons.mpr ⟨indented_splits _ _ _, ih _ (number + 1)⟩

theorem readLines_split (dialect : Dialect) (lines : List (List Char)) :
    ∀ line ∈ readLines dialect lines, line.Splits := by
  cases dialect with
  | brace => exact bracedLines_split .literal lines false 1
  | generic => exact bracedLines_split .typed lines false 1
  | indent => exact indentedLines_split lines {} 1

/-- The lines of a text are shared out among its routines: no line goes to two of them, each routine owns its lines
in whole, and the decisions of all routines are those of the file. -/
structure Attributed (lines : List ReadLine) (extraction : Extraction) : Prop where
  apart : extraction.routines.Pairwise fun first second => first.linesRead.Disjoint second.linesRead
  owned : ∀ routine ∈ extraction.routines, Owns lines routine
  decisions : extraction.decisions = extraction.routines.flatMap (·.decisions)

/-- Whatever the text is, its lines are shared out. The calls of a line that declares are those behind the declared
name. -/
theorem ofText_attributed (path text : String) (dialect : Dialect) :
    Attributed (readLines dialect (Text.lines text.toList)) (ofText path text dialect) ∧
      ∀ line ∈ readLines dialect (Text.lines text.toList), line.Splits := by
  refine ⟨?_, readLines_split dialect _⟩
  let findings := findingsOf path dialect (Text.lines text.toList)
  obtain ⟨ledger, lines, booked⟩ := findingsOf_booked path dialect (Text.lines text.toList)
  have sorted := lines ▸ readLines_sorted dialect (Text.lines text.toList)
  have routines : (ofText path text dialect).routines =
      findings.routines.map fun routine => { routine with exported := findings.isExported routine } := rfl
  refine ⟨?_, ?_, rfl⟩
  · rw [routines, List.pairwise_map]
    exact booked.disjoint sorted
  · intro routine member
    rw [routines] at member
    obtain ⟨before, held, rfl⟩ := List.mem_map.mp member
    obtain ⟨place, found⟩ := List.mem_iff_getElem?.mp held
    have owns := booked.owns sorted found (findingsOf_weighed path dialect _ before held)
    rw [lines] at owns
    exact ⟨owns.numbered, owns.calls, owns.decisions, owns.callOrder, owns.decisionOrder, owns.begins, owns.owner,
      owns.weight⟩

end Extraction

end FlowAtlas
