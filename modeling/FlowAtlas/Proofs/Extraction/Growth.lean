import FlowAtlas.Proofs.Extraction.Runs
import FlowAtlas.Proofs.Text.Lines
import Mathlib.Data.List.Infix

namespace FlowAtlas

namespace Routine

def declared (routine : Routine) : Routine :=
  { routine with exported := false, outgoing := [], decisions := [], cyclomaticWeight := 1 }

structure Continues (early late : Routine) : Prop where
  declared : late.declared = early.declared
  calls : early.outgoing <+: late.outgoing
  decisions : early.decisions <+: late.decisions
  weight : late.cyclomaticWeight - late.decisions.length = early.cyclomaticWeight - early.decisions.length

variable {first second third : Routine}

theorem Continues.refl (routine : Routine) : routine.Continues routine :=
  ⟨rfl, List.prefix_refl _, List.prefix_refl _, rfl⟩

theorem Continues.trans (front : first.Continues second) (back : second.Continues third) :
    first.Continues third :=
  ⟨back.declared.trans front.declared, front.calls.trans back.calls, front.decisions.trans back.decisions,
    back.weight.trans front.weight⟩

def Weighed (routine : Routine) : Prop := routine.cyclomaticWeight = 1 + routine.decisions.length

end Routine

def ClassDecl.declared (opened : ClassDecl) : ClassDecl := { opened with methods := [], exported := false }

def RoutinesContinue (early late : List Routine) : Prop :=
  ∀ (place : Nat) (routine : Routine), early[place]? = some routine →
    ∃ later, late[place]? = some later ∧ routine.Continues later

namespace RoutinesContinue

variable {first second third : List Routine}

theorem refl (routines : List Routine) : RoutinesContinue routines routines :=
  fun _ routine found => ⟨routine, found, Routine.Continues.refl routine⟩

theorem trans (front : RoutinesContinue first second) (back : RoutinesContinue second third) :
    RoutinesContinue first third := by
  intro place routine found
  obtain ⟨middle, reached, grown⟩ := front place routine found
  obtain ⟨later, arrived, further⟩ := back place middle reached
  exact ⟨later, arrived, grown.trans further⟩

theorem append (routines more : List Routine) : RoutinesContinue routines (routines ++ more) := by
  intro place routine found
  obtain ⟨bound, _⟩ := List.getElem?_eq_some_iff.mp found
  exact ⟨routine, (List.getElem?_append_left bound).trans found, Routine.Continues.refl routine⟩

theorem modify {routines : List Routine} {place : Nat} {change : Routine → Routine}
    (grows : ∀ routine ∈ routines, routine.Continues (change routine)) :
    RoutinesContinue routines (routines.modify place change) := by
  intro other routine found
  rw [List.getElem?_modify, found]
  by_cases here : place = other
  · exact ⟨change routine, by simp [here], grows routine (List.mem_of_getElem? found)⟩
  · exact ⟨routine, by simp [here], Routine.Continues.refl routine⟩

end RoutinesContinue

namespace Extraction

namespace Findings

theorem withLine_weighed (routine : Routine) (code callText raw : List Char) (line : Nat) :
    (withLine routine code callText raw line).Weighed := rfl

theorem withLine_continues {routine : Routine} (weighed : routine.Weighed) (code callText raw : List Char)
    (line : Nat) : routine.Continues (withLine routine code callText raw line) := by
  refine ⟨rfl, List.prefix_append _ _, List.prefix_append _ _, ?_⟩
  rw [withLine_weighed, weighed]
  omega

theorem mem_recordLine {findings : Findings} {code callText raw : List Char} {line : Nat} {routine : Routine}
    (member : routine ∈ (findings.recordLine code callText raw line).routines) :
    routine ∈ findings.routines ∨ ∃ before ∈ findings.routines, withLine before code callText raw line = routine := by
  rw [recordLine] at member
  split at member
  · rename_i place _
    obtain ⟨i, found⟩ := List.getElem?_of_mem member
    rw [List.getElem?_modify] at found
    obtain ⟨before, held, same⟩ := Option.map_eq_some_iff.mp found
    split at same
    · exact Or.inr ⟨before, List.mem_of_getElem? held, same⟩
    · exact Or.inl (same ▸ List.mem_of_getElem? held)
  · exact Or.inl member

theorem weighed_kept : Kept fun findings => ∀ routine ∈ findings.routines, routine.Weighed := by
  intro line first second change weighed
  cases change with
  | declared declaration depth named =>
      cases declaration with
      | classBody name exported => exact weighed
      | routine name kind isAsync exported receiver =>
          intro routine member
          rcases List.mem_append.mp member with old | new
          · exact weighed routine old
          · rw [List.mem_singleton.mp new]
            rfl
  | recorded code callText raw =>
      intro routine member
      rcases mem_recordLine member with old | ⟨before, _, rfl⟩
      · exact weighed routine old
      · exact withLine_weighed _ _ _ _ _
  | _ => exact weighed

/-- Nothing that was found is lost behind further lines. -/
structure Continues (early late : Findings) : Prop where
  routines : RoutinesContinue early.routines late.routines
  classes : early.classes <+: late.classes
  imports : early.imports <+: late.imports

theorem Continues.same {early late : Findings} (routines : late.routines = early.routines)
    (classes : late.classes = early.classes) (imports : late.imports = early.imports) : early.Continues late :=
  ⟨routines ▸ RoutinesContinue.refl _, classes ▸ List.prefix_refl _, imports ▸ List.prefix_refl _⟩

theorem Continues.trans {first second third : Findings} (front : first.Continues second)
    (back : second.Continues third) : first.Continues third :=
  ⟨front.routines.trans back.routines, front.classes.trans back.classes, front.imports.trans back.imports⟩

theorem Change.continues {line : Nat} {first second : Findings} (change : Change line first second)
    (weighed : ∀ routine ∈ first.routines, routine.Weighed) : first.Continues second := by
  cases change with
  | imports targets => exact ⟨RoutinesContinue.refl _, List.prefix_refl _, List.prefix_append _ _⟩
  | declared declaration depth named =>
      cases declaration with
      | classBody name exported => exact ⟨RoutinesContinue.refl _, List.prefix_append _ _, List.prefix_refl _⟩
      | routine name kind isAsync exported receiver =>
          exact ⟨RoutinesContinue.append _ _, List.prefix_refl _, List.prefix_refl _⟩
  | recorded code callText raw =>
      rw [recordLine]
      split
      · refine ⟨RoutinesContinue.modify ?_, List.prefix_refl _, List.prefix_refl _⟩
        exact fun routine member => withLine_continues (weighed routine member) _ _ _ _
      · exact Continues.same rfl rfl rfl
  | _ => exact Continues.same rfl rfl rfl

theorem continues_kept (early : Findings) :
    Kept fun findings => early.Continues findings ∧ ∀ routine ∈ findings.routines, routine.Weighed :=
  fun line first second change holds =>
    ⟨holds.1.trans (change.continues holds.2), weighed_kept line first second change holds.2⟩

end Findings

variable {P : Findings → Prop}

theorem findingsOf_append_keeps (kept : Findings.Kept P) (path : String) (dialect : Dialect)
    (first second : List (List Char)) (holds : P (findingsOf path dialect first)) :
    P (findingsOf path dialect (first ++ second)) := by
  cases dialect with
  | brace =>
      rw [findingsOf, scanBraced_append]
      exact scanBraced_keeps kept _ _ _ _ holds
  | generic =>
      rw [findingsOf, scanBraced_append]
      exact scanBraced_keeps kept _ _ _ _ holds
  | indent =>
      rw [findingsOf, scanIndented_append]
      exact scanIndented_keeps kept _ _ _ holds

theorem findingsOf_weighed (path : String) (dialect : Dialect) (lines : List (List Char)) :
    ∀ routine ∈ (findingsOf path dialect lines).routines, routine.Weighed :=
  findingsOf_keeps Findings.weighed_kept path dialect lines (by simp)

theorem findingsOf_continues (path : String) (dialect : Dialect) (first second : List (List Char)) :
    (findingsOf path dialect first).Continues (findingsOf path dialect (first ++ second)) :=
  (findingsOf_append_keeps (Findings.continues_kept _) path dialect first second
    ⟨Findings.Continues.same rfl rfl rfl, findingsOf_weighed path dialect first⟩).1

structure Continues (early late : Extraction) : Prop where
  files : late.files = early.files
  stats : late.stats = early.stats
  routines : RoutinesContinue early.routines late.routines
  classes : early.classes.map ClassDecl.declared <+: late.classes.map ClassDecl.declared
  imports : early.imports <+: late.imports

theorem Findings.Continues.finish {early late : Findings} (continues : early.Continues late)
    (file : late.file = early.file) : early.finish.Continues late.finish := by
  refine ⟨rfl, rfl, ?_, ?_, continues.imports⟩
  · intro place routine found
    rw [Findings.finish, List.getElem?_map] at found
    obtain ⟨before, held, rfl⟩ := Option.map_eq_some_iff.mp found
    obtain ⟨later, reached, grown⟩ := continues.routines place before held
    refine ⟨{ later with exported := late.isExported later }, ?_, ?_⟩
    · rw [Findings.finish, List.getElem?_map, reached]
      rfl
    · exact ⟨grown.declared, grown.calls, grown.decisions, grown.weight⟩
  · simp only [Findings.finish, List.map_map, Function.comp_def, ClassDecl.declared, file]
    exact continues.classes.map _

/-- A text that ends in a line feed is extracted alike, whatever text follows it. Later lines only add to what was
found, and decide which names are exported. -/
theorem ofText_continues (path front rest : String) (dialect : Dialect) :
    (ofText path (front ++ "\n") dialect).Continues (ofText path (front ++ "\n" ++ rest) dialect) := by
  have lines : Text.lines (front ++ "\n" ++ rest).toList =
      Text.lines (front ++ "\n").toList ++ Text.lines rest.toList := by
    have split := Text.lines_append front.toList rest.toList
    simpa using split
  rw [ofText, ofText, lines]
  refine (findingsOf_continues path dialect _ _).finish ?_
  rw [findingsOf_file, findingsOf_file]

end Extraction

end FlowAtlas
