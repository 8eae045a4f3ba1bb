import FlowAtlas.Proofs.Extraction.Attribution
import FlowAtlas.Proofs.Extraction.Namesakes
import FlowAtlas.Proofs.Extraction.Unlisted

namespace FlowAtlas.Extraction

/-- A declaration that a line opens, with the code behind the declared name. -/
structure Opening where
  line : Nat
  declaration : Declaration
  behind : List Char
  deriving DecidableEq, Repr

namespace Opening

def class? (opening : Opening) : Option (String × Int) :=
  match opening.declaration with
  | .classBody name _ => some (name, opening.line)
  | .routine .. => none

def routine? (opening : Opening) : Option (String × Int) :=
  match opening.declaration with
  | .classBody .. => none
  | .routine name .. => some (name, opening.line)

theorem class_tells {opening : Opening} {name : String} {line : Int} (tells : opening.class? = some (name, line)) :
    name = opening.declaration.name ∧ line = opening.line ∧ opening.routine? = none := by
  obtain ⟨number, declaration, behind⟩ := opening
  cases declaration with
  | classBody =>
      cases tells
      exact ⟨rfl, rfl, rfl⟩
  | routine => cases tells

theorem routine_tells {opening : Opening} {name : String} {line : Int}
    (tells : opening.routine? = some (name, line)) : name = opening.declaration.name ∧ line = opening.line := by
  obtain ⟨number, declaration, behind⟩ := opening
  cases declaration with
  | classBody => cases tells
  | routine =>
      cases tells
      exact ⟨rfl, rfl⟩

end Opening

def openingsOn (line : Nat) (declared : Option (Declaration × List Char)) : List Opening :=
  declared.toList.map fun (declaration, behind) => ⟨line, declaration, behind⟩

def openingsFrom {σ : Type} (declared : σ → Nat → List Char → Option (Declaration × List Char))
    (next : σ → List Char → σ) : σ → Nat → List (List Char) → List Opening
  | _, _, [] => []
  | state, number, raw :: rest =>
    openingsOn number (declared state number raw) ++ openingsFrom declared next (next state raw) (number + 1) rest

structure Blocks where
  comment : Bool := false
  imports : Bool := false

namespace Blocks

def declared? (braces : Braces) (blocks : Blocks) (raw : List Char) : Option (Declaration × List Char) :=
  if blocks.imports || (braces.marks raw).opensImports then none
  else braces.declaration? (Text.trim (bracedCode blocks.comment raw).1)

def next (braces : Braces) (blocks : Blocks) (raw : List Char) : Blocks where
  comment := (bracedCode blocks.comment raw).2
  imports := if blocks.imports then !(braces.marks raw).closesImports else (braces.marks raw).opensImports

end Blocks

def bracedOpenings (braces : Braces) (blocks : Blocks) (number : Nat) (lines : List (List Char)) : List Opening :=
  openingsFrom (fun blocks _ raw => blocks.declared? braces raw) (Blocks.next braces) blocks number lines

def indentedOpenings (carried : Carried) (number : Nat) (lines : List (List Char)) : List Opening :=
  openingsFrom (fun carried number raw => (carried.line number raw).declared?) Carried.next carried number lines

def openings (dialect : Dialect) (lines : List (List Char)) : List Opening :=
  match dialect with
  | .brace => bracedOpenings .literal {} 1 lines
  | .generic => bracedOpenings .typed {} 1 lines
  | .indent => indentedOpenings {} 1 lines

section order

theorem mem_openingsOn {line : Nat} {declared : Option (Declaration × List Char)} {opening : Opening} :
    opening ∈ openingsOn line declared ↔
      opening.line = line ∧ declared = some (opening.declaration, opening.behind) := by
  obtain ⟨number, declaration, behind⟩ := opening
  cases declared with
  | none => simp [openingsOn]
  | some pair => simp [openingsOn, Prod.ext_iff, eq_comm]

variable {σ : Type} (declared : σ → Nat → List Char → Option (Declaration × List Char)) (next : σ → List Char → σ)

theorem mem_openingsFrom_iff (lines : List (List Char)) {opening : Opening} : ∀ (state : σ) (number : Nat),
    opening ∈ openingsFrom declared next state number lines ↔
      ∃ (place : Nat) (bound : place < lines.length), opening.line = number + place ∧
        declared ((lines.take place).foldl next state) opening.line lines[place] =
          some (opening.declaration, opening.behind) := by
  induction lines with
  | nil =>
      intro state number
      constructor
      · exact fun member => nomatch member
      · rintro ⟨_, bound, _⟩
        exact absurd bound (Nat.not_lt_zero _)
  | cons raw rest ih =>
      intro state number
      rw [openingsFrom, List.mem_append, mem_openingsOn, ih]
      constructor
      · rintro (⟨line, declares⟩ | ⟨place, bound, line, declares⟩)
        · exact ⟨0, Nat.zero_lt_succ _, line, line ▸ declares⟩
        · refine ⟨place + 1, Nat.succ_lt_succ bound, ?_, declares⟩
          rw [line, Nat.add_assoc, Nat.add_comm 1]
      · rintro ⟨place, bound, line, declares⟩
        cases place with
        | zero =>
            have here : opening.line = number := line
            exact Or.inl ⟨here, here ▸ declares⟩
        | succ place =>
            refine Or.inr ⟨place, Nat.lt_of_succ_lt_succ bound, ?_, declares⟩
            rw [line, Nat.add_assoc, Nat.add_comm 1]

theorem mem_openingsFrom {lines : List (List Char)} {state : σ} {number : Nat} {opening : Opening}
    (member : opening ∈ openingsFrom declared next state number lines) :
    (number ≤ opening.line ∧ opening.line < number + lines.length) ∧
      ∃ before raw, declared before opening.line raw = some (opening.declaration, opening.behind) := by
  obtain ⟨place, bound, line, declares⟩ := (mem_openingsFrom_iff declared next lines state number).mp member
  exact ⟨by omega, _, _, declares⟩

theorem openingsFrom_sorted (lines : List (List Char)) : ∀ (state : σ) (number : Nat),
    (openingsFrom declared next state number lines).Pairwise fun first second => first.line < second.line := by
  induction lines with
  | nil => exact fun _ _ => List.Pairwise.nil
  | cons raw rest ih =>
      intro state number
      refine List.pairwise_append.mpr ⟨?_, ih _ _, ?_⟩
      · cases declared state number raw with
        | none => exact List.Pairwise.nil
        | some pair => exact List.pairwise_singleton _ _
      · intro first here second later
        rw [(mem_openingsOn.mp here).1]
        exact (mem_openingsFrom declared next later).1.1

theorem later_append {openings : List Opening} {number : Nat} (later : ∀ opening ∈ openings, opening.line < number)
    (here : Option (Declaration × List Char)) :
    ∀ opening ∈ openings ++ openingsOn number here, opening.line < number + 1 := by
  intro opening member
  rcases List.mem_append.mp member with old | new
  · exact Nat.lt_succ_of_lt (later opening old)
  · exact (mem_openingsOn.mp new).1 ▸ Nat.lt_succ_self number

end order

/-- Classes and routines found so far are those that some openings tell, with the ids that go with them. -/
structure Opened (openings : List Opening) (findings : Findings) : Prop where
  classes : findings.classes.map (fun opened => (opened.name, (opened.line : Int))) = openings.filterMap Opening.class?
  routines : findings.routines.map (fun routine => (routine.name, routine.line)) = openings.filterMap Opening.routine?
  ided : findings.Ided
  scopes : ∀ scope ∈ findings.scopes, ∀ name, scope.kind = .classBody name → IsName name

theorem opened_nil (path : String) : Opened [] { file := path } := ⟨rfl, rfl, ⟨by simp, by simp, by simp⟩, by simp⟩

section steps

variable {openings : List Opening} {first second findings : Findings}

open Findings

theorem idBehind_congr {earlier others : List Routine}
    (alike : earlier.map Routine.declared = others.map Routine.declared) (path name : String) (owner : Option String)
    (line : Int) : idBehind path earlier name owner line = idBehind path others name owner line := by
  have any := congrArg (fun routines : List Routine => routines.any (Routine.isNamesake name owner)) alike
  rw [List.any_map, List.any_map] at any
  have same : earlier.any (Routine.isNamesake name owner) = others.any (Routine.isNamesake name owner) := any
  rw [idBehind, idBehind, same]

theorem Opened.alike (opened : Opened openings first) (file : second.file = first.file)
    (classes : second.classes = first.classes)
    (routines : second.routines.map Routine.declared = first.routines.map Routine.declared)
    (scopes : ∀ scope ∈ second.scopes, ∃ before ∈ first.scopes, before.kind = scope.kind) :
    Opened openings second := by
  have viewed : ∀ {α : Type} (view : Routine → α), (∀ routine, view routine.declared = view routine) →
      second.routines.map view = first.routines.map view := by
    intro α view same
    have views := congrArg (List.map view) routines
    simpa only [List.map_map, Function.comp_def, same] using views
  have held : ∀ routine ∈ second.routines, ∃ before ∈ first.routines, before.declared = routine.declared := by
    intro routine member
    exact List.mem_map.mp (routines ▸ List.mem_map_of_mem member)
  refine ⟨classes ▸ opened.classes, ?_, ⟨?_, ?_, ?_⟩, ?_⟩
  · rw [viewed (fun routine => (routine.name, routine.line)) fun _ => rfl]
    exact opened.routines
  · intro place routine found
    have viewed := congrArg (fun held : List Routine => held[place]?) routines
    simp only [List.getElem?_map, found, Option.map_some] at viewed
    obtain ⟨before, held, same⟩ := Option.map_eq_some_iff.mp viewed.symm
    have id := opened.ided.ids place before held
    have behind : (first.routines.take place).map Routine.declared =
        (second.routines.take place).map Routine.declared := by
      rw [List.map_take, List.map_take, routines]
    have names : before.name = routine.name := (congrArg Routine.name same :)
    have owners : before.owner = routine.owner := (congrArg Routine.owner same :)
    have lines : before.line = routine.line := (congrArg Routine.line same :)
    rw [idBehind_congr behind, ← file, names, owners, lines] at id
    exact (congrArg Routine.id same).symm.trans id
  · intro routine member
    obtain ⟨before, among, same⟩ := held routine member
    exact (congrArg Routine.name same) ▸ opened.ided.names before among
  · intro routine member
    obtain ⟨before, among, same⟩ := held routine member
    exact (congrArg Routine.owner same) ▸ opened.ided.owners before among
  · intro scope member name kind
    obtain ⟨before, among, same⟩ := scopes scope member
    exact opened.scopes before among name (same.trans kind)

theorem Opened.lines_lt (opened : Opened openings findings) {line : Nat}
    (later : ∀ opening ∈ openings, opening.line < line) :
    ∀ routine ∈ findings.routines, routine.line < (line : Int) := by
  intro routine member
  have told : (routine.name, routine.line) ∈ openings.filterMap Opening.routine? :=
    opened.routines ▸ List.mem_map_of_mem member
  obtain ⟨opening, among, tells⟩ := List.mem_filterMap.mp told
  have lined : routine.line = opening.line := by
    rw [Opening.routine?] at tells
    split at tells
    · cases tells
    · exact (Prod.mk.inj (Option.some.inj tells)).2.symm
  have before := later opening among
  omega

theorem Opened.openClass (opened : Opened openings findings) {name : String} (named : IsName name) (line depth : Nat)
    (exported : Bool) (behind : List Char) :
    Opened (openings ++ [⟨line, .classBody name exported, behind⟩]) (findings.openClass name line depth exported) := by
  refine ⟨?_, ?_, ⟨opened.ided.ids, opened.ided.names, opened.ided.owners⟩, ?_⟩
  · rw [List.filterMap_append, ← opened.classes, Findings.openClass, List.map_append]
    rfl
  · rw [List.filterMap_append, ← opened.routines]
    exact (List.append_nil _).symm
  · intro scope member inner kind
    rcases List.mem_cons.mp member with rfl | old
    · exact ScopeKind.classBody.inj kind ▸ named
    · exact opened.scopes scope old inner kind

theorem Opened.openRoutine (opened : Opened openings findings) {name : String} {receiver : Option String}
    (named : IsName name) (received : ∀ owner ∈ receiver, IsName owner) {line : Nat}
    (later : ∀ opening ∈ openings, opening.line < line) (depth : Nat) (kind : RoutineKind)
    (isAsync exported : Bool) (behind : List Char) :
    Opened (openings ++ [⟨line, .routine name kind isAsync exported receiver, behind⟩])
      (findings.openRoutine name line depth kind isAsync exported receiver) := by
  have owned := owner_named opened.scopes received
  have fresh := freshId_eq opened.ided named owned (opened.lines_lt later)
  refine ⟨?_, ?_, ⟨?_, ?_, ?_⟩, ?_⟩
  · rw [List.filterMap_append, ← opened.classes]
    exact (List.append_nil _).symm
  · rw [List.filterMap_append, ← opened.routines, Findings.openRoutine, List.map_append]
    rfl
  · intro place routine found
    rcases Nat.lt_trichotomy place findings.routines.length with old | last | beyond
    · rw [Findings.openRoutine, List.getElem?_append_left old] at found
      have id := opened.ided.ids place routine found
      rwa [Findings.openRoutine, List.take_append_of_le_length (Nat.le_of_lt old)]
    · rw [Findings.openRoutine, last, List.getElem?_concat_length] at found
      rw [← Option.some.inj found, Findings.openRoutine, last, List.take_left]
      exact fresh
    · obtain ⟨bound, _⟩ := List.getElem?_eq_some_iff.mp found
      rw [Findings.openRoutine, List.length_append, List.length_singleton] at bound
      omega
  · intro routine member
    rcases List.mem_append.mp member with old | new
    · exact opened.ided.names routine old
    · rw [List.mem_singleton.mp new]
      exact named
  · intro routine member
    rcases List.mem_append.mp member with old | new
    · exact opened.ided.owners routine old
    · rw [List.mem_singleton.mp new]
      exact owned
  · intro scope member inner kind
    rcases List.mem_cons.mp member with rfl | old
    · cases kind
    · exact opened.scopes scope old inner kind

theorem Opened.declareIf (opened : Opened openings findings) {declared : Option (Declaration × List Char)}
    (named : ∀ declaration behind, declared = some (declaration, behind) → declaration.Named) {line : Nat}
    (later : ∀ opening ∈ openings, opening.line < line) (depth : Nat) :
    Opened (openings ++ openingsOn line declared) (findings.declareIf declared line depth) := by
  rcases declared with _ | ⟨declaration, behind⟩
  · exact (List.append_nil openings).symm ▸ opened
  · have holds := named declaration behind rfl
    cases declaration with
    | classBody name exported => exact opened.openClass holds line depth exported behind
    | routine name kind isAsync exported receiver =>
        exact opened.openRoutine holds.1 holds.2 later depth kind isAsync exported behind

theorem recordLine_classes (findings : Findings) (code callText raw : List Char) (line : Nat) :
    (findings.recordLine code callText raw line).classes = findings.classes := by
  rw [Findings.recordLine]
  split <;> rfl

theorem Opened.record (opened : Opened openings findings) (code callText raw : List Char) (line : Nat) :
    Opened openings (findings.recordLine code callText raw line) := by
  have routines := recordLine_map Routine.declared findings code callText raw line fun _ => rfl
  have scopes := recordLine_scopes findings code callText raw line
  exact opened.alike (recordLine_file _ _ _ _ _) (recordLine_classes _ _ _ _ _) routines
    fun scope member => ⟨scope, scopes ▸ member, rfl⟩

theorem Opened.unquoted (opened : Opened openings findings) : Opened openings findings.unquoted := by
  refine opened.alike rfl rfl ?_ fun scope member => ⟨scope, member, rfl⟩
  rw [Findings.unquoted, List.map_map]
  rfl

theorem Opened.of_unquoted (opened : Opened openings findings.unquoted) : Opened openings findings := by
  refine opened.alike rfl rfl ?_ fun scope member => ⟨scope, member, rfl⟩
  rw [Findings.unquoted, List.map_map]
  rfl

end steps

section braced

variable {braces : Braces} {openings : List Opening}

def BracedScan.blocks (braces : Braces) (scan : BracedScan) : Blocks :=
  ⟨scan.inComment, braces == .typed && scan.inImports⟩

theorem declares_nothing (braces : Braces) : braces.declaration? [] = none := by
  cases braces <;> decide

theorem typed_of_opensImports {raw : List Char} (opens : (braces.marks raw).opensImports = true) :
    (braces == .typed) = true := by
  cases braces with
  | literal => cases opens
  | typed => rfl

theorem step_blocks (scan : BracedScan) (raw : List Char) (line : Nat) :
    (scan.step braces raw line).blocks braces = (scan.blocks braces).next braces raw := by
  have kept : ∀ scan : BracedScan, scan.unquoted.blocks braces = scan.blocks braces := fun _ => rfl
  have comment : (scan.unquoted.blocks braces).comment = scan.inComment := rfl
  have imports : (scan.unquoted.blocks braces).imports = (braces == .typed && scan.unquoted.inImports) := rfl
  rw [← kept, step_unquoted, ← kept scan, Blocks.next, comment, imports, BracedScan.stepRead]
  dsimp only
  by_cases inside : (braces == .typed && scan.unquoted.inImports) = true
  · rw [if_pos inside, if_pos inside, BracedScan.blocks, (Bool.and_eq_true_iff.mp inside).1, Bool.true_and]
  · rw [if_neg inside, if_neg inside]
    by_cases opens : (braces.marks raw).opensImports = true
    · rw [if_pos opens, BracedScan.blocks, typed_of_opensImports opens, opens]
      rfl
    · rw [if_neg opens, eq_false_of_ne_true opens, ← eq_false_of_ne_true inside]
      split <;> rfl

theorem dropWaiting_opened {findings : Findings} (opened : Opened openings findings) (previous code : List Char) :
    Opened openings (findings.dropWaiting previous code) := by
  rw [Findings.dropWaiting]
  split
  · exact opened
  · exact opened.alike rfl rfl rfl fun scope member => ⟨scope, (List.dropWhile_sublist _).subset member, rfl⟩

theorem noteImports_opened {findings : Findings} (opened : Opened openings findings) (raw : List Char) (line : Nat) :
    Opened openings (braces.noteImports findings raw line) := by
  cases braces <;> exact opened.alike rfl rfl rfl fun scope member => ⟨scope, member, rfl⟩

theorem closeEnded_opened {findings : Findings} (opened : Opened openings findings) (code : List Char)
    (line depth : Nat) : Opened openings (findings.closeEnded code line depth) := by
  refine opened.alike rfl rfl rfl ?_
  intro scope member
  rcases mem_startBody ((List.dropWhile_sublist _).subset member) with held | ⟨_, before, held, rfl⟩
  · exact ⟨scope, held, rfl⟩
  · exact ⟨before, held, rfl⟩

theorem stepListed_openings (scan : BracedScan) (opened : Opened openings scan.findings) {line : Nat}
    (later : ∀ opening ∈ openings, opening.line < line) (code : List Char) (listed : List String) :
    Opened (openings ++ openingsOn line (braces.declaration? code))
      (scan.stepListed braces code listed line).findings := by
  have listing : Opened openings ((scan.findings.dropWaiting scan.previous code).addExported listed) :=
    (dropWaiting_opened opened _ _).alike rfl rfl rfl fun scope member => ⟨scope, member, rfl⟩
  have named : ∀ declaration behind, braces.declaration? code = some (declaration, behind) → declaration.Named :=
    fun _ _ found => braced_named found
  exact closeEnded_opened ((listing.declareIf named later scan.depth).record _ _ _ _) _ _ _

theorem braced_step_openings (braces : Braces) {scan : BracedScan} (opened : Opened openings scan.findings) {line : Nat}
    (later : ∀ opening ∈ openings, opening.line < line) (raw : List Char) :
    Opened (openings ++ openingsOn line ((scan.blocks braces).declared? braces raw))
      (scan.step braces raw line).findings := by
  have imports : (scan.blocks braces).imports = (braces == .typed && scan.unquoted.inImports) := rfl
  have comment : (scan.blocks braces).comment = scan.inComment := rfl
  apply Opened.of_unquoted
  have step := congrArg BracedScan.findings (step_unquoted braces scan raw line)
  change (scan.step braces raw line).findings.unquoted = _ at step
  rw [step, Blocks.declared?, imports, comment, BracedScan.stepRead]
  dsimp only
  have kept : Opened (openings ++ openingsOn line none) scan.unquoted.findings :=
    (List.append_nil openings).symm ▸ opened.unquoted
  by_cases inside : (braces == .typed && scan.unquoted.inImports) = true
  · rw [if_pos inside, inside, Bool.true_or, if_pos rfl]
    exact kept
  · rw [if_neg inside, eq_false_of_ne_true inside, Bool.false_or]
    by_cases opens : (braces.marks raw).opensImports = true
    · rw [if_pos opens, if_pos opens]
      exact kept
    · rw [if_neg opens, if_neg opens]
      by_cases empty : Text.trim (bracedCode scan.inComment raw).1 = []
      · rw [empty, declares_nothing]
        exact kept
      · rw [if_neg (by simpa using empty)]
        let commented := { scan.unquoted with inComment := (bracedCode scan.inComment raw).2 }
        exact stepListed_openings commented opened.unquoted later _ _

theorem scanBraced_openings (braces : Braces) (lines : List (List Char)) :
    ∀ (openings : List Opening) (scan : BracedScan) (number : Nat),
      Opened openings scan.findings → (∀ opening ∈ openings, opening.line < number) →
        Opened (openings ++ bracedOpenings braces (scan.blocks braces) number lines)
          (scanBraced braces scan number lines).findings := by
  induction lines with
  | nil => exact fun openings _ _ opened _ => (List.append_nil openings).symm ▸ opened
  | cons raw rest ih =>
      intro openings scan number opened later
      have step := braced_step_openings braces opened later raw
      have whole := ih _ _ (number + 1) step (later_append later _)
      rw [step_blocks, List.append_assoc] at whole
      exact whole

theorem scanBraced_blocks (braces : Braces) (lines : List (List Char)) : ∀ (scan : BracedScan) (line : Nat),
    (scanBraced braces scan line lines).blocks braces = lines.foldl (Blocks.next braces) (scan.blocks braces) := by
  induction lines with
  | nil => exact fun _ _ => rfl
  | cons raw rest ih =>
      intro scan line
      rw [scanBraced, ih, step_blocks, List.foldl_cons]

theorem mem_bracedOpenings (path : String) {lines : List (List Char)} {opening : Opening} :
    opening ∈ bracedOpenings braces {} 1 lines ↔ ∃ (place : Nat) (bound : place < lines.length),
      opening.line = place + 1 ∧ ((bracedAfter braces path lines place).blocks braces).declared? braces lines[place] =
        some (opening.declaration, opening.behind) := by
  have start : ({ findings := { file := path } } : BracedScan).blocks braces = {} := by cases braces <;> rfl
  simp only [bracedOpenings, mem_openingsFrom_iff, bracedAfter, scanBraced_blocks, start, Nat.add_comm 1]

end braced

section indented

variable {openings : List Opening}

theorem indented_declares_nothing (indent : Nat) : Indent.declaration? [] indent = none := by
  have classes : (declaredClass? Indent.classForms []).isNone = true := by decide
  have routines : (declaredRoutine? Indent.routineForms []).isNone = true := by decide
  rw [Indent.declaration?, Option.isNone_iff_eq_none.mp classes, Option.isNone_iff_eq_none.mp routines]
  rfl

theorem indented_step_openings {scan : IndentedScan} (opened : Opened openings scan.findings) {number : Nat}
    (later : ∀ opening ∈ openings, opening.line < number) (raw : List Char) :
    Opened (openings ++ openingsOn number (scan.carried.line number raw).declared?)
      (scan.step raw number).findings := by
  obtain ⟨noted, alike, findings⟩ := step_findings scan raw number
  have same : Opened openings noted :=
    opened.alike alike.file alike.classes (congrArg (List.map Routine.declared) alike.routines)
      fun scope member => ⟨scope, alike.scopes ▸ member, rfl⟩
  let line := scan.carried.line number raw
  rw [findings]
  split
  · rename_i empty
    have nothing : line.declared? = none := by
      rw [CodeLine.declared?]
      split
      · exact (congrArg (fun code => Indent.declaration? code line.indent) (List.isEmpty_iff.mp empty)).trans
          (indented_declares_nothing _)
      · rfl
    rw [nothing]
    exact (List.append_nil openings).symm ▸ same
  · have closed : Opened openings (line.close noted) := by
      rw [CodeLine.close]
      split
      · exact same.alike rfl rfl rfl fun scope member => ⟨scope, (List.dropWhile_sublist _).subset member, rfl⟩
      · exact same
    have named : ∀ declaration behind, line.declared? = some (declaration, behind) → declaration.Named := by
      intro declaration behind declared
      rw [CodeLine.declared?] at declared
      split at declared
      · exact indented_named declared
      · cases declared
    exact (closed.declareIf named later line.indent).record _ _ _ _

theorem scanIndented_openings (lines : List (List Char)) :
    ∀ (openings : List Opening) (scan : IndentedScan) (number : Nat),
      Opened openings scan.findings → (∀ opening ∈ openings, opening.line < number) →
        Opened (openings ++ indentedOpenings scan.carried number lines) (scanIndented scan number lines).findings := by
  induction lines with
  | nil => exact fun openings _ _ opened _ => (List.append_nil openings).symm ▸ opened
  | cons raw rest ih =>
      intro openings scan number opened later
      have step := indented_step_openings opened later raw
      have whole := ih _ _ (number + 1) step (later_append later _)
      rw [step_carried, List.append_assoc] at whole
      exact whole

end indented

section names

theorem declared_unreserved {pattern : Pattern} {code : List Char} {found : Pattern.Match}
    (declared : declared? pattern code = some found) : isReserved (String.ofList found.subject) = false := by
  obtain ⟨matched, _, kept⟩ := Option.bind_eq_some_iff.mp declared
  split at kept
  · cases kept
  · rename_i free
    rw [← Option.some.inj kept]
    exact eq_false_of_ne_true free

theorem declaredClass_unreserved {patterns : List Pattern} {code : List Char} {found : Pattern.Match}
    (declared : declaredClass? patterns code = some found) : isReserved (String.ofList found.subject) = false := by
  obtain ⟨_, _, matched⟩ := List.exists_of_findSome?_eq_some declared
  exact declared_unreserved matched

theorem declaredRoutine_unreserved {forms : List RoutineForm} {code : List Char} {form : RoutineForm}
    {found : Pattern.Match} (declared : declaredRoutine? forms code = some (form, found)) :
    isReserved (String.ofList found.subject) = false := by
  obtain ⟨_, _, matched⟩ := List.exists_of_findSome?_eq_some declared
  obtain ⟨_, searched, same⟩ := Option.map_eq_some_iff.mp matched
  exact (Prod.mk.inj same).2 ▸ declared_unreserved searched

variable {code behind : List Char} {declaration : Declaration}

theorem routineOf_name (braces : Braces) (code : List Char) (form : RoutineForm) (found : Pattern.Match) :
    (braces.routineOf code form found).name = String.ofList found.subject := by
  cases braces <;> rfl

theorem braced_unreserved {braces : Braces} (declared : braces.declaration? code = some (declaration, behind)) :
    isReserved declaration.name = false := by
  rw [Braces.declaration?] at declared
  split at declared
  · rename_i found matched
    rw [← (Prod.mk.inj (Option.some.inj declared)).1]
    exact declaredClass_unreserved matched
  · obtain ⟨⟨form, found⟩, matched, same⟩ := Option.map_eq_some_iff.mp declared
    rw [← (Prod.mk.inj same).1, routineOf_name]
    exact declaredRoutine_unreserved matched

theorem indented_unreserved {indent : Nat} (declared : Indent.declaration? code indent = some (declaration, behind)) :
    isReserved declaration.name = false := by
  rw [Indent.declaration?] at declared
  split at declared
  · rename_i found matched
    rw [← (Prod.mk.inj (Option.some.inj declared)).1]
    exact declaredClass_unreserved matched
  · obtain ⟨⟨form, found⟩, matched, same⟩ := Option.map_eq_some_iff.mp declared
    rw [← (Prod.mk.inj same).1]
    exact declaredRoutine_unreserved matched

theorem openings_unreserved (dialect : Dialect) (lines : List (List Char)) :
    ∀ opening ∈ openings dialect lines, isReserved opening.declaration.name = false := by
  have braced : ∀ {braces : Braces} {blocks : Blocks} {raw : List Char} {declaration : Declaration}
      {behind : List Char}, blocks.declared? braces raw = some (declaration, behind) →
        isReserved declaration.name = false := by
    intro braces blocks raw declaration behind declared
    rw [Blocks.declared?] at declared
    split at declared
    · cases declared
    · exact braced_unreserved declared
  intro opening member
  cases dialect with
  | brace =>
      obtain ⟨_, _, _, declares⟩ := mem_openingsFrom _ _ member
      exact braced declares
  | generic =>
      obtain ⟨_, _, _, declares⟩ := mem_openingsFrom _ _ member
      exact braced declares
  | indent =>
      obtain ⟨_, _, _, declares⟩ := mem_openingsFrom _ _ member
      rw [CodeLine.declared?] at declares
      split at declares
      · exact indented_unreserved declares
      · cases declares

end names

section order

variable (dialect : Dialect) (lines : List (List Char))

theorem openings_within : ∀ opening ∈ openings dialect lines, 1 ≤ opening.line ∧ opening.line ≤ lines.length := by
  intro opening member
  have bounds : 1 ≤ opening.line ∧ opening.line < 1 + lines.length := by
    cases dialect <;> exact (mem_openingsFrom _ _ member).1
  omega

theorem openings_sorted : (openings dialect lines).Pairwise fun first second => first.line < second.line := by
  cases dialect <;> exact openingsFrom_sorted _ _ lines _ 1

end order

theorem findingsOf_openings (path : String) (dialect : Dialect) (lines : List (List Char)) :
    Opened (openings dialect lines) (findingsOf path dialect lines) := by
  have start := opened_nil path
  cases dialect with
  | brace => exact scanBraced_openings .literal lines [] { findings := { file := path } } 1 start (by simp)
  | generic => exact scanBraced_openings .typed lines [] { findings := { file := path } } 1 start (by simp)
  | indent => exact scanIndented_openings lines [] { findings := { file := path } } 1 start (by simp)

/-- Everything that a file opens is reported once, in the order of its lines, with the id that goes with it. -/
structure Reported (path : String) (size : Nat) (openings : List Opening) (found : Extraction) : Prop where
  classes : found.classes.map (fun opened => (opened.name, opened.line)) = openings.filterMap Opening.class?
  routines : found.routines.map (fun routine => (routine.name, routine.line)) = openings.filterMap Opening.routine?
  classOrder : found.classes.Pairwise fun first second => first.line < second.line
  routineOrder : found.routines.Pairwise fun first second => first.line < second.line
  apart : ∀ opened ∈ found.classes, ∀ routine ∈ found.routines, opened.line ≠ routine.line
  within : ∀ line ∈ found.classes.map (·.line) ++ found.routines.map (·.line), 1 ≤ line ∧ line ≤ size
  unreserved : ∀ name ∈ found.classes.map (·.name) ++ found.routines.map (·.name), isReserved name = false
  ids : ∀ (place : Nat) (routine : Routine), found.routines[place]? = some routine →
    routine.id = Findings.idBehind path (found.routines.take place) routine.name routine.owner routine.line

section reported

variable {openings : List Opening} (sorted : openings.Pairwise fun first second => first.line < second.line)

include sorted

theorem told_sorted {view? : Opening → Option (String × Int)} {told : List (String × Int)}
    (tells : ∀ opening name line, view? opening = some (name, line) → line = opening.line)
    (same : told = openings.filterMap view?) : told.Pairwise fun first second => first.2 < second.2 := by
  rw [same]
  refine sorted.filterMap view? ?_
  intro first second before (name, line) here (other, later) there
  change line < later
  rw [tells first name line here, tells second other later there]
  exact_mod_cast before

theorem opening_unique {first second : Opening} (here : first ∈ openings) (there : second ∈ openings)
    (same : first.line = second.line) : first = second := by
  have distinct : (openings.map Opening.line).Nodup := List.pairwise_map.mpr (sorted.imp Nat.ne_of_lt)
  exact List.inj_on_of_nodup_map distinct here there same

end reported

theorem Opened.finish {openings : List Opening} {findings : Findings} (opened : Opened openings findings) :
    findings.finish.classes.map (fun opened => (opened.name, opened.line)) = openings.filterMap Opening.class? ∧
      findings.finish.routines.map (fun routine => (routine.name, routine.line)) =
        openings.filterMap Opening.routine? := by
  constructor
  · rw [← opened.classes, Findings.finish, List.map_map]
    rfl
  · rw [← opened.routines, Findings.finish, List.map_map]
    rfl

theorem Findings.finish_reported {openings : List Opening} {findings : Findings} (opened : Opened openings findings)
    {size : Nat} (sorted : openings.Pairwise fun first second => first.line < second.line)
    (within : ∀ opening ∈ openings, 1 ≤ opening.line ∧ opening.line ≤ size)
    (unreserved : ∀ opening ∈ openings, isReserved opening.declaration.name = false) :
    Reported findings.file size openings findings.finish := by
  obtain ⟨classes, routines⟩ := opened.finish
  have told : ∀ pair ∈ openings.filterMap Opening.class? ++ openings.filterMap Opening.routine?,
      ∃ opening ∈ openings, pair = (opening.declaration.name, (opening.line : Int)) := by
    rintro ⟨name, line⟩ member
    rcases List.mem_append.mp member with member | member
    · obtain ⟨opening, among, tells⟩ := List.mem_filterMap.mp member
      exact ⟨opening, among, Prod.ext (Opening.class_tells tells).1 (Opening.class_tells tells).2.1⟩
    · obtain ⟨opening, among, tells⟩ := List.mem_filterMap.mp member
      exact ⟨opening, among, Prod.ext (Opening.routine_tells tells).1 (Opening.routine_tells tells).2⟩
  have viewed : ∀ {α : Type} (view : String × Int → α),
      findings.finish.classes.map (fun opened => view (opened.name, opened.line)) ++
          findings.finish.routines.map (fun routine => view (routine.name, routine.line)) =
        (openings.filterMap Opening.class? ++ openings.filterMap Opening.routine?).map view := by
    intro α view
    rw [List.map_append, ← classes, ← routines, List.map_map, List.map_map]
    rfl
  refine ⟨classes, routines, ?_, ?_, ?_, ?_, ?_, ?_⟩
  · have told := told_sorted sorted (fun _ _ _ tells => (Opening.class_tells tells).2.1) classes
    rwa [List.pairwise_map] at told
  · have told := told_sorted sorted (fun _ _ _ tells => (Opening.routine_tells tells).2) routines
    rwa [List.pairwise_map] at told
  · intro opened member routine among same
    obtain ⟨first, here, tells⟩ := List.mem_filterMap.mp
      (classes ▸ List.mem_map_of_mem (f := fun opened : ClassDecl => (opened.name, opened.line)) member)
    obtain ⟨second, there, shows⟩ := List.mem_filterMap.mp
      (routines ▸ List.mem_map_of_mem (f := fun routine : Routine => (routine.name, routine.line)) among)
    obtain ⟨_, line, none⟩ := Opening.class_tells tells
    have lines : (first.line : Int) = second.line := by rw [← line, ← (Opening.routine_tells shows).2, same]
    rw [opening_unique sorted here there (by exact_mod_cast lines), shows] at none
    cases none
  · intro line member
    rw [viewed Prod.snd] at member
    obtain ⟨pair, among, rfl⟩ := List.mem_map.mp member
    obtain ⟨opening, held, rfl⟩ := told pair among
    have bounds := within opening held
    change (1 : Int) ≤ opening.line ∧ (opening.line : Int) ≤ size
    exact_mod_cast bounds
  · intro name member
    rw [viewed Prod.fst] at member
    obtain ⟨pair, among, rfl⟩ := List.mem_map.mp member
    obtain ⟨opening, held, rfl⟩ := told pair among
    exact unreserved opening held
  · intro place routine found
    rw [Findings.finish, List.getElem?_map] at found
    obtain ⟨before, held, rfl⟩ := Option.map_eq_some_iff.mp found
    have alike : (findings.routines.take place).map Routine.declared =
        (findings.finish.routines.take place).map Routine.declared := by
      rw [Findings.finish, List.map_take, List.map_take, List.map_map]
      rfl
    exact (opened.ided.ids place before held).trans (idBehind_congr alike _ _ _ _)

/-- A file reports each of its declarations once. The first routine with a name and an owner has the plain id, each
later one has its line behind it. -/
theorem ofText_reported (path text : String) (dialect : Dialect) :
    Reported path (Text.lines text.toList).length (openings dialect (Text.lines text.toList))
      (ofText path text dialect) := by
  let lines := Text.lines text.toList
  have reported := Findings.finish_reported (findingsOf_openings path dialect lines) (openings_sorted dialect lines)
    (openings_within dialect lines) (openings_unreserved dialect lines)
  rwa [findingsOf_file] at reported

end FlowAtlas.Extraction
