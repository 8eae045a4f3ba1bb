import FlowAtlas.Proofs.Extraction.Openings

namespace FlowAtlas.Extraction

def Declares (braces : Braces) (code : List Char) (routine : Routine) : Prop :=
  ∃ kind isAsync receiver behind,
    braces.declaration? code = some (.routine routine.name kind isAsync routine.exported receiver, behind)

def DeclaresClass (braces : Braces) (code : List Char) (opened : OpenedClass) : Prop :=
  ∃ behind, braces.declaration? code = some (.classBody opened.name opened.exported, behind)

section step

variable {braces : Braces} {findings : Findings} {scan : BracedScan} {code raw : List Char} {line depth : Nat}

theorem mem_declareIf_routines {routine : Routine}
    (member : routine ∈ (findings.declareIf (braces.declaration? code) line depth).routines) :
    routine ∈ findings.routines ∨ routine.line = line ∧ Declares braces code routine := by
  cases declared : braces.declaration? code with
  | none =>
      rw [declared] at member
      exact Or.inl member
  | some pair =>
      obtain ⟨declaration, behind⟩ := pair
      rw [declared] at member
      cases declaration with
      | classBody name exported => exact Or.inl member
      | routine name kind isAsync exported receiver =>
          rcases List.mem_append.mp member with old | new
          · exact Or.inl old
          · rw [List.mem_singleton.mp new]
            exact Or.inr ⟨rfl, kind, isAsync, receiver, behind, declared⟩

theorem mem_declareIf_classes {opened : OpenedClass}
    (member : opened ∈ (findings.declareIf (braces.declaration? code) line depth).classes) :
    opened ∈ findings.classes ∨ opened.line = line ∧ DeclaresClass braces code opened := by
  cases declared : braces.declaration? code with
  | none =>
      rw [declared] at member
      exact Or.inl member
  | some pair =>
      obtain ⟨declaration, behind⟩ := pair
      rw [declared] at member
      cases declaration with
      | classBody name exported =>
          rcases List.mem_append.mp member with old | new
          · exact Or.inl old
          · rw [List.mem_singleton.mp new]
            exact Or.inr ⟨rfl, behind, declared⟩
      | routine name kind isAsync exported receiver => exact Or.inl member

theorem noteImports_classes (braces : Braces) (findings : Findings) (raw : List Char) (line : Nat) :
    (braces.noteImports findings raw line).classes = findings.classes := by
  cases braces <;> rfl

theorem dropWaiting_classes (findings : Findings) (previous code : List Char) :
    (findings.dropWaiting previous code).classes = findings.classes := by
  rw [Findings.dropWaiting]
  split <;> rfl

theorem stepImports_classes (scan : BracedScan) (raw : List Char) (line : Nat) :
    (scan.stepImports raw line).findings.classes = scan.findings.classes := by
  rw [BracedScan.stepImports]
  split
  · rfl
  · split <;> rfl

theorem step_declares {routine : Routine} (member : routine ∈ (scan.step braces raw line).findings.routines) :
    (∃ before ∈ scan.findings.routines,
        before.name = routine.name ∧ before.line = routine.line ∧ before.exported = routine.exported) ∨
      routine.line = line ∧ Declares braces (scan.codeOf raw) routine := by
  let code := scan.codeOf raw
  rcases BracedScan.step_cases braces scan raw line with ⟨_, _, routines⟩ | ⟨_, same⟩
  · rw [routines] at member
    exact Or.inl ⟨routine, member, rfl, rfl, rfl⟩
  · let noted := braces.noteImports (scan.findings.dropWaiting scan.previous code) (Text.trim raw) line
    -- Recording the line changes none of what is said here of the routine.
    have kept := Findings.recordLine_map (fun routine => (routine.name, routine.line, routine.exported))
      (noted.declareIf (braces.declaration? code) line scan.depth) code (callText (braces.declaration? code) code) raw
      line fun _ => rfl
    rw [same] at member
    have viewed : (routine.name, routine.line, routine.exported) ∈ _ := kept ▸ List.mem_map_of_mem member
    obtain ⟨before, held, equal⟩ := List.mem_map.mp viewed
    obtain ⟨named, equal⟩ := Prod.mk.inj equal
    obtain ⟨lined, exports⟩ := Prod.mk.inj equal
    rcases mem_declareIf_routines held with old | ⟨new, declares⟩
    · rw [noteImports_routines, dropWaiting_routines] at old
      exact Or.inl ⟨before, old, named, lined, exports⟩
    · refine Or.inr ⟨lined.symm.trans new, ?_⟩
      rw [Declares, ← named, ← exports]
      exact declares

theorem step_declares_class {opened : OpenedClass} (member : opened ∈ (scan.step braces raw line).findings.classes) :
    opened ∈ scan.findings.classes ∨ opened.line = line ∧ DeclaresClass braces (scan.codeOf raw) opened := by
  rw [step_eq] at member
  dsimp only at member
  split at member
  · rw [stepImports_classes] at member
    exact Or.inl member
  · split at member
    · exact Or.inl member
    · split at member
      · exact Or.inl member
      · have held : opened ∈ (Findings.recordLine _ _ _ _ _).classes := member
        rw [recordLine_classes] at held
        rcases mem_declareIf_classes held with old | new
        · rw [noteImports_classes, dropWaiting_classes] at old
          exact Or.inl old
        · exact Or.inr new

end step

section runs

variable {braces : Braces} {path : String} {lines : List (List Char)} {count : Nat}

theorem after_declares (bound : count ≤ lines.length) :
    ∀ routine ∈ (bracedAfter braces path lines count).findings.routines, ∃ place < count,
      routine.line = (place + 1 : Nat) ∧ Declares braces (codeAt braces path lines place) routine := by
  induction count with
  | zero => simp [bracedAfter, scanBraced]
  | succ count ih =>
      intro routine member
      rw [bracedAfter_succ braces path bound] at member
      rcases step_declares member with ⟨before, held, named, lined, exports⟩ | ⟨lined, declares⟩
      · obtain ⟨place, less, there, declares⟩ := ih (Nat.le_of_lt bound) before held
        refine ⟨place, Nat.lt_succ_of_lt less, lined ▸ there, ?_⟩
        rw [Declares, ← named, ← exports]
        exact declares
      · refine ⟨count, Nat.lt_succ_self count, lined, ?_⟩
        rwa [codeAt_eq braces path bound]

theorem after_declares_class (bound : count ≤ lines.length) :
    ∀ opened ∈ (bracedAfter braces path lines count).findings.classes, ∃ place < count,
      opened.line = place + 1 ∧ DeclaresClass braces (codeAt braces path lines place) opened := by
  induction count with
  | zero => simp [bracedAfter, scanBraced]
  | succ count ih =>
      intro opened member
      rw [bracedAfter_succ braces path bound] at member
      rcases step_declares_class member with old | ⟨lined, declares⟩
      · obtain ⟨place, less, there, declares⟩ := ih (Nat.le_of_lt bound) opened old
        exact ⟨place, Nat.lt_succ_of_lt less, there, declares⟩
      · refine ⟨count, Nat.lt_succ_self count, lined, ?_⟩
        rwa [codeAt_eq braces path bound]

end runs

end FlowAtlas.Extraction
