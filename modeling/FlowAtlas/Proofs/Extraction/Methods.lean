import FlowAtlas.Proofs.Extraction.Openings

namespace FlowAtlas

def Extraction.listings (found : Extraction) (routine : Routine) : Nat :=
  found.classes.countP fun declared => routine.owner == some declared.name

namespace Extraction

section counting

variable {α β γ : Type} (joined : α → β → Bool) (view : β → γ) (classes : List α) (members : List β)

theorem flatMap_joined_perm :
    (classes.flatMap fun declared => (members.filter (joined declared)).map view).Perm
      (members.flatMap fun member => List.replicate (classes.countP (joined · member)) (view member)) := by
  induction classes with
  | nil => simp
  | cons first rest ih =>
      have here : (members.filter (joined first)).map view =
          members.flatMap fun member => if joined first member then [view member] else [] := by
        clear ih
        induction members with
        | nil => rfl
        | cons member others ih =>
            rw [List.flatMap_cons, ← ih, List.filter_cons]
            split <;> rfl
      have counted : ∀ member, List.replicate ((first :: rest).countP (joined · member)) (view member) =
          (if joined first member then [view member] else []) ++
            List.replicate (rest.countP (joined · member)) (view member) := by
        intro member
        rw [List.countP_cons]
        split
        · exact List.replicate_succ
        · rfl
      rw [List.flatMap_cons, here, funext counted]
      exact (ih.append_left _).trans (List.flatMap_append_perm members _ _)

end counting

/-- Every owner has the name of a class of the file, as those that are still open have. -/
structure Findings.Housed (findings : Findings) : Prop where
  scopes : ∀ scope ∈ findings.scopes, ∀ name, scope.kind = .classBody name → name ∈ findings.classes.map (·.name)
  owners : ∀ routine ∈ findings.routines, ∀ owner ∈ routine.owner, owner ∈ findings.classes.map (·.name)

section housed

variable {findings first second : Findings}

theorem Findings.Housed.alike (housed : first.Housed) (classes : second.classes = first.classes)
    (owners : second.routines.map (·.owner) = first.routines.map (·.owner))
    (scopes : ∀ scope ∈ second.scopes, scope ∈ first.scopes) : second.Housed := by
  refine ⟨fun scope member => classes ▸ housed.scopes scope (scopes scope member), ?_⟩
  intro routine member
  have told : routine.owner ∈ first.routines.map (·.owner) := owners ▸ List.mem_map_of_mem member
  obtain ⟨before, among, same⟩ := List.mem_map.mp told
  exact classes ▸ same ▸ housed.owners before among

theorem openClass_housed (housed : findings.Housed) (name : String) (line depth : Nat) (exported : Bool) :
    (findings.openClass name line depth exported).Housed := by
  have more : ∀ {owner : String}, owner ∈ findings.classes.map (·.name) →
      owner ∈ (findings.openClass name line depth exported).classes.map (·.name) := by
    intro owner member
    rw [Findings.openClass, List.map_append]
    exact List.mem_append_left _ member
  refine ⟨?_, fun routine member owner held => more (housed.owners routine member owner held)⟩
  intro scope member inner kind
  rcases List.mem_cons.mp member with rfl | old
  · rw [← ScopeKind.classBody.inj kind]
    simp [Findings.openClass]
  · exact more (housed.scopes scope old inner kind)

theorem openRoutine_housed (housed : findings.Housed) (name : String) (line depth : Nat) (kind : RoutineKind)
    (isAsync exported : Bool) : (findings.openRoutine name line depth kind isAsync exported none).Housed := by
  refine ⟨?_, ?_⟩
  · intro scope member inner isClass
    rcases List.mem_cons.mp member with rfl | old
    · cases isClass
    · exact housed.scopes scope old inner isClass
  · intro routine member
    rcases List.mem_append.mp member with old | new
    · exact housed.owners routine old
    · rw [List.mem_singleton.mp new]
      exact Findings.enclosingClass_holds housed.scopes

theorem indented_step_housed {scan : IndentedScan} (housed : scan.findings.Housed) (raw : List Char) (number : Nat) :
    (scan.step raw number).findings.Housed := by
  obtain ⟨noted, alike, findings⟩ := step_findings scan raw number
  let line := scan.carried.line number raw
  have same : noted.Housed := housed.alike alike.classes (congrArg _ alike.routines) fun _ member => alike.scopes ▸ member
  rw [findings]
  split
  · exact same
  · have closed : (line.close noted).Housed := by
      rw [CodeLine.close]
      split
      · exact same.alike rfl rfl fun _ member => (List.dropWhile_sublist _).subset member
      · exact same
    have declared : (line.note noted).Housed := by
      rw [CodeLine.note]
      cases declares : line.declared? with
      | none => exact closed
      | some pair =>
          obtain ⟨declaration, behind⟩ := pair
          cases declaration with
          | classBody name exported => exact openClass_housed closed name _ _ exported
          | routine name kind isAsync exported receiver =>
              rw [receiver_of_indented declares]
              exact openRoutine_housed closed name _ _ kind isAsync exported
    exact declared.alike (recordLine_classes _ _ _ _ _) (Findings.recordLine_map Routine.owner _ _ _ _ _ fun _ => rfl)
      fun _ member => (Findings.recordLine_scopes _ _ _ _ _) ▸ member

theorem scanIndented_housed (lines : List (List Char)) : ∀ {scan : IndentedScan} (number : Nat),
    scan.findings.Housed → (scanIndented scan number lines).findings.Housed := by
  induction lines with
  | nil => exact fun _ housed => housed
  | cons raw rest ih => exact fun number housed => ih (number + 1) (indented_step_housed housed raw number)

end housed

/-- The lists of methods of a file, and in how many of them a routine stands. -/
structure MethodsListed (dialect : Dialect) (found : Extraction) : Prop where
  methods : ∀ declared ∈ found.classes, declared.methods =
    (found.routines.filter fun routine => routine.owner == some declared.name).map (·.name)
  together : (found.classes.flatMap (·.methods)).Perm
    (found.routines.flatMap fun routine => List.replicate (found.listings routine) routine.name)
  listed : dialect = .indent → ∀ routine ∈ found.routines, routine.owner.isSome = true → 1 ≤ found.listings routine
  once : (found.classes.map (·.name)).Nodup → ∀ routine ∈ found.routines, found.listings routine ≤ 1
  bounded : (found.classes.map (·.name)).Nodup →
    (found.classes.flatMap (·.methods)).length ≤ found.routines.countP (·.owner.isSome)

section finish

variable (findings : Findings)

theorem finish_methods : ∀ declared ∈ findings.finish.classes, declared.methods =
    (findings.finish.routines.filter fun routine => routine.owner == some declared.name).map (·.name) := by
  intro declared member
  obtain ⟨opened, _, rfl⟩ := List.mem_map.mp member
  rfl

theorem finish_together : (findings.finish.classes.flatMap (·.methods)).Perm
    (findings.finish.routines.flatMap fun routine =>
      List.replicate (findings.finish.listings routine) routine.name) := by
  rw [List.flatMap_congr (finish_methods findings)]
  let joined := fun (declared : ClassDecl) (routine : Routine) => routine.owner == some declared.name
  exact flatMap_joined_perm joined Routine.name findings.finish.classes findings.finish.routines

theorem listings_pos (found : Extraction) {routine : Routine} {owner : String} (owned : routine.owner = some owner)
    (named : owner ∈ found.classes.map (·.name)) : 1 ≤ found.listings routine := by
  obtain ⟨declared, member, same⟩ := List.mem_map.mp named
  exact List.countP_pos_iff.mpr ⟨declared, member, by simp [owned, same]⟩

theorem listings_unowned (found : Extraction) {routine : Routine} (unowned : routine.owner = none) :
    found.listings routine = 0 := by
  rw [Extraction.listings, List.countP_eq_zero]
  intro declared _
  simp [unowned]

theorem listings_le_one {found : Extraction} (distinct : (found.classes.map (·.name)).Nodup) (routine : Routine) :
    found.listings routine ≤ 1 := by
  cases owned : routine.owner with
  | none => simp [listings_unowned found owned]
  | some owner =>
      have counted : found.listings routine = (found.classes.map (·.name)).count owner := by
        rw [Extraction.listings, List.count, List.countP_map]
        refine List.countP_congr fun declared _ => ?_
        rw [owned, Function.comp_apply, beq_iff_eq, beq_iff_eq, Option.some_inj, eq_comm]
      exact counted ▸ List.nodup_iff_count_le_one.mp distinct owner

theorem listed_length_le {found : Extraction} (distinct : (found.classes.map (·.name)).Nodup)
    (routines : List Routine) :
    (routines.flatMap fun routine => List.replicate (found.listings routine) routine.name).length ≤
      routines.countP (·.owner.isSome) := by
  induction routines with
  | nil => exact Nat.le_refl 0
  | cons routine rest ih =>
      have few := listings_le_one distinct routine
      rw [List.flatMap_cons, List.length_append, List.length_replicate, List.countP_cons]
      cases owned : routine.owner with
      | none => simpa [listings_unowned found owned] using ih
      | some owner =>
          rw [Option.isSome_some, if_pos rfl]
          omega

end finish

/-- A class lists the routines whose owner has its name, and in an indented file each owner is the name of a class. So
no method stands in two lists where the classes of the file have different names. -/
theorem ofText_listings (path text : String) (dialect : Dialect) :
    MethodsListed dialect (ofText path text dialect) := by
  let lines := Text.lines text.toList
  have together := finish_together (findingsOf path dialect lines)
  refine ⟨finish_methods _, together, ?_, fun distinct routine _ => listings_le_one distinct routine, ?_⟩
  · rintro rfl routine member isOwned
    obtain ⟨owner, owned⟩ := Option.isSome_iff_exists.mp isOwned
    have housed : (findingsOf path .indent lines).Housed := scanIndented_housed lines 1 ⟨by simp, by simp⟩
    obtain ⟨before, among, rfl⟩ := List.mem_map.mp member
    refine listings_pos _ owned ?_
    have named := housed.owners before among owner owned
    rw [ofText, Findings.finish, List.map_map]
    exact named
  · intro distinct
    exact Nat.le_trans (Nat.le_of_eq together.length_eq) (listed_length_le distinct _)

theorem ofText_listings_shared :
    let blocks := ofText "a.rs" "struct S \x7b\n\x7d\nimpl S \x7b\n    fn f() \x7b\n    \x7d\n\x7d\n" .generic
    let again := ofText "a.py" "class S:\n    def f(self):\n        pass\nclass S:\n    def g(self):\n        pass\n" .indent
    (blocks.routines.map fun routine => (routine.name, routine.owner)) = [("f", some "S")] ∧
      blocks.classes.map (fun declared => (declared.name, declared.line, declared.methods)) =
        [("S", 1, ["f"]), ("S", 3, ["f"])] ∧
      blocks.routines.countP (·.owner.isSome) < (blocks.classes.flatMap (·.methods)).length ∧
      again.classes.map (fun declared => (declared.name, declared.line, declared.methods)) =
        [("S", 1, ["f", "g"]), ("S", 4, ["f", "g"])] ∧
      again.routines.countP (·.owner.isSome) < (again.classes.flatMap (·.methods)).length := by
  decide +kernel

end Extraction

end FlowAtlas
