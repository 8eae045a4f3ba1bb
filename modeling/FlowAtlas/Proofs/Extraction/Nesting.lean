import FlowAtlas.Proofs.Extraction.Runs
import Mathlib.Data.List.TakeWhile

/-! Scopes in braces. A scope whose body began lies below the current depth, unless a declaration that waits for
its body keeps it from being closed. -/

namespace FlowAtlas.Extraction

def Nested (scopes : List Scope) : Prop :=
  scopes.Pairwise fun inner outer => outer.started = true → outer.depth < inner.depth

def AllBelow (depth : Nat) (scopes : List Scope) : Prop :=
  ∀ scope ∈ scopes, scope.started = true → scope.depth < depth

/-- Declarations that wait for their body stand before a scope that began and is not below a depth. -/
def Covered (depth : Nat) (scopes : List Scope) : Prop :=
  ∃ waiting scope outer, scopes = waiting ++ scope :: outer ∧ waiting ≠ [] ∧
    (∀ other ∈ waiting, other.started = false) ∧ scope.started = true ∧ depth ≤ scope.depth

section scopes

variable {scopes : List Scope} {depth : Nat}

theorem not_covered_of_allBelow (below : AllBelow depth scopes) : ¬ Covered depth scopes := by
  rintro ⟨waiting, scope, outer, rfl, _, _, started, above⟩
  have under := below scope (List.mem_append_right _ List.mem_cons_self) started
  omega

theorem waiting_split (scopes : List Scope) :
    ∃ waiting begun, scopes = waiting ++ begun ∧ (∀ other ∈ waiting, other.started = false) ∧
      ∀ scope ∈ begun.head?, scope.started = true := by
  refine ⟨scopes.takeWhile fun scope => !scope.started, scopes.dropWhile fun scope => !scope.started, ?_, ?_, ?_⟩
  · exact List.takeWhile_append_dropWhile.symm
  · intro other member
    simpa using List.mem_takeWhile_imp member
  · intro scope first
    have kept := List.head?_dropWhile_not (fun scope : Scope => !scope.started) scopes
    rw [first] at kept
    simpa using kept

theorem allBelow_of_not_covered (nested : Nested scopes) (tight : AllBelow depth scopes.head?.toList)
    (bare : ¬ Covered depth scopes) : AllBelow depth scopes := by
  -- With the innermost scope below the depth, only a cover leaves others that are not.
  obtain ⟨waiting, begun, rfl, waits, began⟩ := waiting_split scopes
  cases begun with
  | nil =>
      intro scope member started
      rw [List.append_nil] at member
      rw [waits scope member] at started
      cases started
  | cons first outer =>
      have lowest : first.depth < depth := by
        by_cases none : waiting = []
        · subst none
          exact tight first (by simp) (began first rfl)
        · by_contra above
          exact bare ⟨waiting, first, outer, rfl, none, waits, began first rfl, Nat.not_lt.mp above⟩
      intro scope member started
      rcases List.mem_append.mp member with member | member
      · rw [waits scope member] at started
        cases started
      · rcases List.mem_cons.mp member with rfl | member
        · exact lowest
        · have inner := (List.pairwise_append.mp nested).2.1
          exact Nat.lt_trans ((List.pairwise_cons.mp inner).1 scope member started) lowest

theorem nested_startBody (opens : Nat) (nested : Nested scopes) : Nested (startBody opens scopes) := by
  cases scopes with
  | nil => exact nested
  | cons first outer =>
      obtain ⟨inside, rest⟩ := List.pairwise_cons.mp nested
      refine List.pairwise_cons.mpr ⟨?_, rest⟩
      intro scope member started
      have under := inside scope member started
      split <;> exact under

end scopes

theorem noteImports_scopes (braces : Braces) (findings : Findings) (raw : List Char) (line : Nat) :
    (braces.noteImports findings raw line).scopes = findings.scopes := by
  cases braces <;> rfl

theorem noteImports_routines (braces : Braces) (findings : Findings) (raw : List Char) (line : Nat) :
    (braces.noteImports findings raw line).routines = findings.routines := by
  cases braces <;> rfl

theorem declareIf_scopes (findings : Findings) (declared : Option (Declaration × List Char)) (line depth : Nat) :
    ∃ fresh, (findings.declareIf declared line depth).scopes = fresh ++ findings.scopes ∧
      ∀ scope ∈ fresh, scope.started = false ∧ scope.line = line ∧ scope.depth = depth := by
  cases declared with
  | none => exact ⟨[], rfl, by simp⟩
  | some pair =>
      obtain ⟨declaration, behind⟩ := pair
      cases declaration with
      | classBody name exported =>
          refine ⟨[{ kind := .classBody name, line, depth }], rfl, ?_⟩
          intro scope member
          rw [List.mem_singleton.mp member]
          exact ⟨rfl, rfl, rfl⟩
      | routine name kind isAsync exported receiver =>
          refine ⟨[{ kind := .routine findings.routines.length, line, depth }], rfl, ?_⟩
          intro scope member
          rw [List.mem_singleton.mp member]
          exact ⟨rfl, rfl, rfl⟩

theorem declareIf_scopes_congr {first second : Findings} (scopes : first.scopes = second.scopes)
    (routines : first.routines = second.routines) (declared : Option (Declaration × List Char)) (line depth : Nat) :
    (first.declareIf declared line depth).scopes = (second.declareIf declared line depth).scopes := by
  cases declared with
  | none => exact scopes
  | some pair =>
      obtain ⟨declaration, behind⟩ := pair
      cases declaration <;> simp [Findings.declareIf, Findings.declare, Findings.openClass, Findings.openRoutine,
        scopes, routines]

theorem dropWaiting_scopes (findings : Findings) (previous code : List Char) :
    (findings.dropWaiting previous code).scopes.Sublist findings.scopes := by
  rw [Findings.dropWaiting]
  split
  · exact List.Sublist.refl _
  · exact List.dropWhile_sublist _

namespace BracedScan

variable {braces : Braces} {scan : BracedScan} {code raw : List Char} {line : Nat}

def codeOf (scan : BracedScan) (raw : List Char) : List Char := Text.trim (bracedCode scan.inComment raw).1

def entered (braces : Braces) (scan : BracedScan) (code : List Char) (line : Nat) : List Scope :=
  ((scan.findings.dropWaiting scan.previous code).declareIf (braces.declaration? code) line scan.depth).scopes

theorem stepCode_scopes :
    (scan.stepCode braces code raw line).findings.scopes =
      (startBody (code.count '\x7b') (scan.entered braces code line)).dropWhile fun scope =>
        scope.endsAt code line (scan.stepCode braces code raw line).depth := by
  simp only [stepCode, Findings.closeEnded, Findings.recordLine_scopes, entered]
  rw [declareIf_scopes_congr (noteImports_scopes _ _ _ _) (noteImports_routines _ _ _ _)]

theorem mem_entered {scope : Scope} (member : scope ∈ scan.entered braces code line) :
    scope ∈ scan.findings.scopes ∨ scope.started = false ∧ scope.line = line := by
  obtain ⟨fresh, same, new⟩ := declareIf_scopes (scan.findings.dropWaiting scan.previous code)
    (braces.declaration? code) line scan.depth
  rw [entered, same] at member
  rcases List.mem_append.mp member with member | member
  · exact Or.inr ⟨(new scope member).1, (new scope member).2.1⟩
  · exact Or.inl ((dropWaiting_scopes _ _ _).subset member)

theorem entered_nested (nested : Nested scan.findings.scopes) (below : AllBelow scan.depth scan.findings.scopes) :
    Nested (scan.entered braces code line) := by
  obtain ⟨fresh, same, new⟩ := declareIf_scopes (scan.findings.dropWaiting scan.previous code)
    (braces.declaration? code) line scan.depth
  have kept := dropWaiting_scopes scan.findings scan.previous code
  rw [entered, same]
  refine List.pairwise_append.mpr ⟨?_, nested.sublist kept, ?_⟩
  · refine List.pairwise_of_forall_mem_list ?_
    intro inner _ outer member started
    rw [(new outer member).1] at started
    cases started
  · intro inner declared outer member started
    rw [(new inner declared).2.2]
    exact below outer (kept.subset member) started

theorem stepCode_nested (nested : Nested scan.findings.scopes) (below : AllBelow scan.depth scan.findings.scopes) :
    Nested (scan.stepCode braces code raw line).findings.scopes := by
  rw [stepCode_scopes]
  exact (nested_startBody _ (entered_nested nested below)).sublist (List.dropWhile_sublist _)

theorem stepCode_tight :
    AllBelow (scan.stepCode braces code raw line).depth
      (scan.stepCode braces code raw line).findings.scopes.head?.toList := by
  rw [stepCode_scopes]
  intro scope first started
  have remains := List.head?_dropWhile_not (fun scope : Scope =>
    scope.endsAt code line (scan.stepCode braces code raw line).depth)
      (startBody (code.count '\x7b') (scan.entered braces code line))
  rw [Option.mem_toList.mp first] at remains
  simpa [Scope.endsAt, started] using remains

theorem step_cases (braces : Braces) (scan : BracedScan) (raw : List Char) (line : Nat) :
    ((scan.step braces raw line).depth = scan.depth ∧
      (scan.step braces raw line).findings.scopes = scan.findings.scopes ∧
      (scan.step braces raw line).findings.routines = scan.findings.routines) ∨
    ((scan.step braces raw line).depth = (scan.stepCode braces (scan.codeOf raw) raw line).depth ∧
      (scan.step braces raw line).findings = (scan.stepCode braces (scan.codeOf raw) raw line).findings) := by
  rw [step_eq]
  dsimp only
  split
  · refine Or.inl ?_
    rw [stepImports]
    split
    · exact ⟨rfl, rfl, rfl⟩
    · split <;> exact ⟨rfl, rfl, rfl⟩
  · split
    · exact Or.inl ⟨rfl, rfl, rfl⟩
    · split
      · exact Or.inl ⟨rfl, rfl, rfl⟩
      · exact Or.inr ⟨rfl, rfl⟩

theorem step_nested (nested : Nested scan.findings.scopes) (below : AllBelow scan.depth scan.findings.scopes) :
    Nested (scan.step braces raw line).findings.scopes := by
  rcases step_cases braces scan raw line with ⟨_, scopes, _⟩ | ⟨_, same⟩
  · rwa [scopes]
  · rw [same]
    exact stepCode_nested nested below

theorem step_tight (tight : AllBelow scan.depth scan.findings.scopes.head?.toList) :
    AllBelow (scan.step braces raw line).depth (scan.step braces raw line).findings.scopes.head?.toList := by
  rcases step_cases braces scan raw line with ⟨depth, scopes, _⟩ | ⟨depth, same⟩
  · rwa [depth, scopes]
  · rw [depth, same]
    exact stepCode_tight

theorem mem_step {scope : Scope} (member : scope ∈ (scan.step braces raw line).findings.scopes) :
    scope ∈ scan.findings.scopes ∨ scope.line = line ∧ scope.started = false ∨
      '\x7b' ∈ scan.codeOf raw ∧
        (scope.line = line ∨ ∃ before ∈ scan.findings.scopes, before.line = scope.line) := by
  rcases step_cases braces scan raw line with ⟨_, scopes, _⟩ | ⟨_, same⟩
  · rw [scopes] at member
    exact Or.inl member
  · rw [same, stepCode_scopes] at member
    rcases mem_startBody ((List.dropWhile_sublist _).subset member) with held | ⟨opened, before, held, rfl⟩
    · rcases mem_entered held with old | ⟨waits, new⟩
      · exact Or.inl old
      · exact Or.inr (Or.inl ⟨new, waits⟩)
    · refine Or.inr (Or.inr ⟨List.count_pos_iff.mp opened, ?_⟩)
      rcases mem_entered held with old | ⟨_, new⟩
      · exact Or.inr ⟨before, old, rfl⟩
      · exact Or.inl new

end BracedScan

section runs

variable {braces : Braces} {path : String} {lines : List (List Char)} {count : Nat}

def SettledAt (braces : Braces) (path : String) (lines : List (List Char)) (count : Nat) : Prop :=
  AllBelow (bracedAfter braces path lines count).depth (bracedAfter braces path lines count).findings.scopes

def CoveredAt (braces : Braces) (path : String) (lines : List (List Char)) (count : Nat) : Prop :=
  Covered (bracedAfter braces path lines count).depth (bracedAfter braces path lines count).findings.scopes

theorem after_tight (bound : count ≤ lines.length) :
    AllBelow (bracedAfter braces path lines count).depth
      (bracedAfter braces path lines count).findings.scopes.head?.toList := by
  induction count with
  | zero => simp [AllBelow, bracedAfter, scanBraced]
  | succ count ih =>
      rw [bracedAfter_succ braces path bound]
      exact BracedScan.step_tight (ih (Nat.le_of_lt bound))

theorem after_nested (bound : count ≤ lines.length)
    (settled : ∀ earlier < count, SettledAt braces path lines earlier) :
    Nested (bracedAfter braces path lines count).findings.scopes := by
  induction count with
  | zero => exact List.Pairwise.nil
  | succ count ih =>
      rw [bracedAfter_succ braces path bound]
      refine BracedScan.step_nested (ih (Nat.le_of_lt bound) ?_) (settled count (Nat.lt_succ_self count))
      exact fun earlier before => settled earlier (Nat.lt_succ_of_lt before)

theorem settled_of_not_covered (bound : count ≤ lines.length)
    (bare : ∀ earlier ≤ count, ¬ CoveredAt braces path lines earlier) : SettledAt braces path lines count := by
  -- Scopes are nested here only if they were settled behind every line before, hence the strong induction.
  induction count using Nat.strong_induction_on with
  | _ count ih =>
      have before : ∀ earlier < count, SettledAt braces path lines earlier := by
        intro earlier less
        exact ih earlier less (Nat.le_trans (Nat.le_of_lt less) bound) fun first within =>
          bare first (Nat.le_trans within (Nat.le_of_lt less))
      exact allBelow_of_not_covered (after_nested bound before) (after_tight bound) (bare count (Nat.le_refl count))

theorem settled_iff_not_covered (bound : count ≤ lines.length) :
    (∀ earlier ≤ count, SettledAt braces path lines earlier) ↔
      ∀ earlier ≤ count, ¬ CoveredAt braces path lines earlier := by
  constructor
  · exact fun settled earlier within => not_covered_of_allBelow (settled earlier within)
  · intro bare earlier within
    exact settled_of_not_covered (Nat.le_trans within bound) fun first before =>
      bare first (Nat.le_trans before within)

def codeAt (braces : Braces) (path : String) (lines : List (List Char)) (count : Nat) : List Char :=
  (bracedAfter braces path lines count).codeOf (lines.getD count [])

/-- A brace opened on the scope's line or later, and the depth has stayed above that of the scope since. -/
def Encloses (braces : Braces) (path : String) (lines : List (List Char)) (scope : Scope) (count : Nat) : Prop :=
  ∃ start < count, scope.line ≤ start + 1 ∧ '\x7b' ∈ codeAt braces path lines start ∧
    ∀ later, start < later → later ≤ count → scope.depth < (bracedAfter braces path lines later).depth

theorem codeAt_eq (braces : Braces) (path : String) (held : count < lines.length) :
    codeAt braces path lines count = (bracedAfter braces path lines count).codeOf lines[count] := by
  simp [codeAt, held]

theorem Encloses.next {scope : Scope} (encloses : Encloses braces path lines scope count)
    (below : scope.depth < (bracedAfter braces path lines (count + 1)).depth) :
    Encloses braces path lines scope (count + 1) := by
  obtain ⟨start, before, placed, brace, above⟩ := encloses
  refine ⟨start, Nat.lt_succ_of_lt before, placed, brace, ?_⟩
  intro later after within
  rcases Nat.lt_or_eq_of_le within with less | rfl
  · exact above later after (Nat.lt_succ_iff.mp less)
  · exact below

theorem scope_line_le (bound : count ≤ lines.length) :
    ∀ scope ∈ (bracedAfter braces path lines count).findings.scopes, scope.line ≤ count := by
  induction count with
  | zero => simp [bracedAfter, scanBraced]
  | succ count ih =>
      intro scope member
      rw [bracedAfter_succ braces path bound] at member
      have earlier := ih (Nat.le_of_lt bound)
      rcases BracedScan.mem_step member with old | ⟨new, _⟩ | ⟨_, new | ⟨before, held, same⟩⟩
      · exact Nat.le_succ_of_le (earlier scope old)
      · exact Nat.le_of_eq new
      · exact Nat.le_of_eq new
      · rw [← same]
        exact Nat.le_succ_of_le (earlier before held)

theorem encloses_of_settled (bound : count ≤ lines.length)
    (settled : ∀ earlier ≤ count, SettledAt braces path lines earlier) :
    ∀ scope ∈ (bracedAfter braces path lines count).findings.scopes, scope.started = true →
      Encloses braces path lines scope count := by
  induction count with
  | zero => simp [bracedAfter, scanBraced]
  | succ count ih =>
      intro scope member started
      have below := settled (count + 1) (Nat.le_refl _) scope member started
      have lined := scope_line_le bound scope member
      rw [bracedAfter_succ braces path bound] at member
      rcases BracedScan.mem_step member with old | ⟨_, waits⟩ | ⟨brace, _⟩
      · have before : ∀ earlier ≤ count, SettledAt braces path lines earlier :=
          fun earlier within => settled earlier (Nat.le_succ_of_le within)
        exact (ih (Nat.le_of_lt bound) before scope old started).next below
      · rw [waits] at started
        cases started
      · -- Its brace is on this very line.
        refine ⟨count, Nat.lt_succ_self count, lined, ?_, ?_⟩
        · rwa [codeAt_eq braces path bound]
        · intro later after within
          rwa [Nat.le_antisymm within after]

end runs

def receiver? (braces : Braces) (code : List Char) : Option String :=
  match braces.declaration? code with
  | some (.routine _ _ _ _ receiver, _) => receiver
  | _ => none

def BracedScan.classAround? (scan : BracedScan) (code : List Char) : Option String :=
  (scan.findings.dropWaiting scan.previous code).enclosingClass?

theorem declareIf_routines {braces : Braces} {findings : Findings} {code : List Char} {line depth : Nat}
    {routine : Routine}
    (member : routine ∈ (findings.declareIf (braces.declaration? code) line depth).routines) :
    routine ∈ findings.routines ∨
      routine.line = line ∧ routine.owner = (receiver? braces code).or findings.enclosingClass? := by
  rw [receiver?]
  cases declared : braces.declaration? code with
  | none =>
      rw [declared] at member
      exact Or.inl member
  | some pair =>
      obtain ⟨declaration, behind⟩ := pair
      rw [declared] at member
      cases declaration with
      | classBody name exported => exact Or.inl member
      | routine name kind isAsync exported receiver =>
          rcases List.mem_append.mp member with member | member
          · exact Or.inl member
          · rw [List.mem_singleton.mp member]
            exact Or.inr ⟨rfl, rfl⟩

theorem dropWaiting_routines (findings : Findings) (previous code : List Char) :
    (findings.dropWaiting previous code).routines = findings.routines := by
  rw [Findings.dropWaiting]
  split <;> rfl

theorem enclosingClass_congr {first second : Findings} (scopes : first.scopes = second.scopes) :
    first.enclosingClass? = second.enclosingClass? := by
  rw [Findings.enclosingClass?, Findings.enclosingClass?, scopes]

theorem mem_step_routines {braces : Braces} {scan : BracedScan} {raw : List Char} {line : Nat} {routine : Routine}
    (member : routine ∈ (scan.step braces raw line).findings.routines) :
    (∃ before ∈ scan.findings.routines, before.line = routine.line ∧ before.owner = routine.owner) ∨
      routine.line = line ∧
        routine.owner = (receiver? braces (scan.codeOf raw)).or (scan.classAround? (scan.codeOf raw)) := by
  let code := scan.codeOf raw
  rcases BracedScan.step_cases braces scan raw line with ⟨_, _, routines⟩ | ⟨_, same⟩
  · rw [routines] at member
    exact Or.inl ⟨routine, member, rfl, rfl⟩
  · let noted := braces.noteImports (scan.findings.dropWaiting scan.previous code) (Text.trim raw) line
    have kept := Findings.recordLine_map (fun routine => (routine.line, routine.owner))
      (noted.declareIf (braces.declaration? code) line scan.depth) code (callText (braces.declaration? code) code) raw
      line fun _ => rfl
    rw [same] at member
    have viewed : (routine.line, routine.owner) ∈ _ := kept ▸ List.mem_map_of_mem member
    obtain ⟨before, held, equal⟩ := List.mem_map.mp viewed
    obtain ⟨lined, owned⟩ := Prod.mk.inj equal
    have around : noted.enclosingClass? = scan.classAround? code :=
      enclosingClass_congr (noteImports_scopes _ _ _ _)
    rcases declareIf_routines held with old | ⟨new, owner⟩
    · rw [noteImports_routines, dropWaiting_routines] at old
      exact Or.inl ⟨before, old, lined, owned⟩
    · refine Or.inr ⟨lined.symm.trans new, ?_⟩
      rw [← owned, owner, around]

theorem classAround_open {scan : BracedScan} {code : List Char} {owner : String}
    (around : scan.classAround? code = some owner) :
    ∃ scope ∈ scan.findings.scopes, scope.kind = .classBody owner ∧
      (scope.started = true ∨ scope.started = false ∧ stillWaiting scan.previous code = true) := by
  obtain ⟨scope, first, held⟩ := Option.bind_eq_some_iff.mp around
  have kind : scope.kind = .classBody owner := by
    cases kind : scope.kind with
    | routine place => simp [kind] at held
    | classBody name =>
        rw [kind] at held
        rw [Option.some.inj held]
  have member : scope ∈ scan.findings.scopes :=
    (dropWaiting_scopes _ _ _).subset (List.mem_of_mem_head? first)
  refine ⟨scope, member, kind, ?_⟩
  by_cases waits : stillWaiting scan.previous code = true
  · cases started : scope.started with
    | true => exact Or.inl rfl
    | false => exact Or.inr ⟨rfl, waits⟩
  · have begun := List.head?_dropWhile_not (fun scope : Scope => !scope.started) scan.findings.scopes
    rw [Findings.dropWaiting, if_neg waits] at first
    rw [first] at begun
    exact Or.inl (by simpa using begun)

def Braces.dialect : Braces → Dialect
  | literal => .brace
  | typed => .generic

theorem findingsOf_braces (braces : Braces) (path : String) (lines : List (List Char)) :
    findingsOf path braces.dialect lines = (bracedAfter braces path lines lines.length).findings := by
  rw [bracedAfter_beyond braces path (Nat.le_refl _)]
  cases braces <;> rfl

theorem routine_declared {braces : Braces} {path : String} {lines : List (List Char)} {count : Nat}
    (bound : count ≤ lines.length) :
    ∀ routine ∈ (bracedAfter braces path lines count).findings.routines, ∃ place < count,
      routine.line = (place + 1 : Nat) ∧ routine.owner = (receiver? braces (codeAt braces path lines place)).or
        ((bracedAfter braces path lines place).classAround? (codeAt braces path lines place)) := by
  induction count with
  | zero => simp [bracedAfter, scanBraced]
  | succ count ih =>
      intro routine member
      rw [bracedAfter_succ braces path bound] at member
      rcases mem_step_routines member with ⟨before, held, lined, owned⟩ | ⟨lined, owned⟩
      · obtain ⟨place, less, there, owner⟩ := ih (Nat.le_of_lt bound) before held
        exact ⟨place, Nat.lt_succ_of_lt less, lined ▸ there, owned ▸ owner⟩
      · refine ⟨count, Nat.lt_succ_self count, lined, ?_⟩
        rwa [codeAt_eq braces path bound]

/-- Scopes are settled behind each line up to one if and only if no declaration that waits for its body covers a
scope behind any of them. Up to there a class owns what is declared inside its braces, and what is declared where
its own declaration still goes on. -/
theorem ofText_nesting (braces : Braces) (path text : String) :
    let lines := Text.lines text.toList
    (∀ count ≤ lines.length, (∀ earlier ≤ count, SettledAt braces path lines earlier) ↔
      ∀ earlier ≤ count, ¬ CoveredAt braces path lines earlier) ∧
    ∀ routine ∈ (ofText path text braces.dialect).routines, ∃ count < lines.length,
      routine.line = (count + 1 : Nat) ∧ ∀ owner, routine.owner = some owner →
        receiver? braces (codeAt braces path lines count) = some owner ∨
        ((∀ earlier ≤ count, ¬ CoveredAt braces path lines earlier) →
          ∃ scope ∈ (bracedAfter braces path lines count).findings.scopes, scope.kind = .classBody owner ∧
            (scope.started = true ∧ Encloses braces path lines scope count ∨
              scope.started = false ∧ stillWaiting (bracedAfter braces path lines count).previous
                (codeAt braces path lines count) = true)) := by
  intro lines
  refine ⟨fun count bound => settled_iff_not_covered bound, ?_⟩
  intro routine member
  have found : routine ∈ (findingsOf path braces.dialect lines).finish.routines := member
  obtain ⟨before, held, rfl⟩ := List.mem_map.mp found
  rw [findingsOf_braces] at held
  obtain ⟨count, bound, lined, owned⟩ := routine_declared (Nat.le_refl _) before held
  refine ⟨count, bound, lined, ?_⟩
  intro owner known
  have named : before.owner = some owner := known
  rw [owned, Option.or_eq_some_iff] at named
  refine named.imp_right ?_
  rintro ⟨_, around⟩ bare
  have settled := (settled_iff_not_covered (Nat.le_of_lt bound)).mpr bare
  have encloses := encloses_of_settled (Nat.le_of_lt bound) settled
  obtain ⟨scope, among, kind, started | waits⟩ := classAround_open around
  · exact ⟨scope, among, kind, Or.inl ⟨started, encloses scope among started⟩⟩
  · exact ⟨scope, among, kind, Or.inr waits⟩

/-- An arrow without braces, on the line that closes its class, covers the class. -/
theorem ofText_nesting_arrow :
    let text := "class A \x7b\n  tap = e => send(e) \x7d\nfunction f() \x7b\n\x7d\n"
    let lines := Text.lines text.toList
    ¬ SettledAt .literal "a.js" lines 2 ∧ ∃ earlier ≤ 2, CoveredAt .literal "a.js" lines earlier := by
  intro text lines
  have unsettled : ¬ SettledAt .literal "a.js" lines 2 := by
    unfold SettledAt AllBelow
    decide +kernel
  refine ⟨unsettled, ?_⟩
  by_contra none
  have bare : ∀ earlier ≤ 2, ¬ CoveredAt .literal "a.js" lines earlier :=
    fun earlier within covered => none ⟨earlier, within, covered⟩
  have bound : 2 ≤ lines.length := by decide +kernel
  exact unsettled (((ofText_nesting .literal "a.js" text).1 2 bound).mpr bare 2 (Nat.le_refl 2))

end FlowAtlas.Extraction
