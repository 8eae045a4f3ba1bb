import FlowAtlas.Proofs.Extraction.Changes
import FlowAtlas.Proofs.Text.Separators
import Mathlib.Data.List.Nodup
import Mathlib.Data.List.Perm.Subperm
import Std.Data.String.ToNat

/-! Ids of routines: distinct in a file, and different from those of every other file. -/

namespace FlowAtlas.Extraction

namespace Findings

theorem firstFree_spec (used : List String) (candidate : Nat → String) (limit : Nat) :
    ∀ suffix, firstFree used candidate limit suffix ∉ used ∨ ∀ i ≤ limit, candidate (suffix + i) ∈ used := by
  induction limit with
  | zero =>
      intro suffix
      by_cases taken : candidate suffix ∈ used
      · refine Or.inr ?_
        intro i bound
        rwa [Nat.le_zero.mp bound]
      · exact Or.inl taken
  | succ limit ih =>
      intro suffix
      by_cases taken : candidate suffix ∈ used
      · have next : firstFree used candidate (limit + 1) suffix =
            firstFree used candidate limit (suffix + 1) := by
          simp [firstFree, taken]
        rw [next]
        refine (ih (suffix + 1)).imp_right ?_
        intro later i bound
        cases i with
        | zero => exact taken
        | succ i =>
            have same : suffix + (i + 1) = suffix + 1 + i := by omega
            rw [same]
            exact later i (by omega)
      · exact Or.inl (by simp [firstFree, taken])

theorem firstFree_notMem (used : List String) {candidate : Nat → String}
    (injective : Function.Injective candidate) (suffix : Nat) :
    firstFree used candidate used.length suffix ∉ used := by
  -- Else all tries are used texts, and there is one more of them.
  rcases firstFree_spec used candidate used.length suffix with free | taken
  · exact free
  · exfalso
    let tried := (List.range (used.length + 1)).map fun i => candidate (suffix + i)
    have distinct : tried.Nodup := by
      refine List.nodup_range.map ?_
      intro i j same
      have := injective same
      omega
    have among : tried ⊆ used := by
      intro text member
      obtain ⟨i, bound, rfl⟩ := List.mem_map.mp member
      exact taken i (Nat.lt_succ_iff.mp (List.mem_range.mp bound))
    have count := (List.subperm_of_subset distinct among).length_le
    simp only [tried, List.length_map, List.length_range] at count
    omega

theorem numbered_injective (base : String) : Function.Injective fun suffix : Nat => s!"{base}.{suffix}" := by
  intro i j same
  have digits := congrArg String.toList same
  simp only [String.toList_append, toString, String.append_assoc, List.append_cancel_left_eq] at digits
  exact Nat.repr_injective (String.toList_inj.mp digits)

theorem freshId_notMem (findings : Findings) (name : String) (owner : Option String) (line : Nat) :
    findings.freshId name owner line ∉ findings.routines.map (·.id) := by
  unfold freshId
  dsimp only
  split
  · rename_i free
    simpa using free
  · split
    · rename_i free
      simpa using free
    · exact firstFree_notMem _ (numbered_injective _) 2

end Findings

def IdIn (path id : String) : Prop := ∃ tail, id = path ++ ":" ++ tail ∧ ':' ∉ tail.toList

theorem eq_of_append_colon {front : List Char} : ∀ {other back rest : List Char}, ':' ∉ front → ':' ∉ other →
    front ++ ':' :: back = other ++ ':' :: rest → back = rest := by
  induction front with
  | nil =>
      intro other back rest _ free same
      cases other with
      | nil => exact (List.cons.inj same).2
      | cons c more => exact absurd ((List.cons.inj same).1 ▸ List.mem_cons_self) free
  | cons c front ih =>
      intro other back rest plain free same
      cases other with
      | nil => exact absurd ((List.cons.inj same).1 ▸ List.mem_cons_self) plain
      | cons d more =>
          exact ih (fun member => plain (List.mem_cons_of_mem _ member))
            (fun member => free (List.mem_cons_of_mem _ member)) (List.cons.inj same).2

theorem path_eq_of_idIn {path other id : String} (first : IdIn path id) (second : IdIn other id) :
    path = other := by
  -- The path is what stands before the last colon, whatever colons it holds itself.
  obtain ⟨tail, rfl, plain⟩ := first
  obtain ⟨rest, same, free⟩ := second
  have reversed := congrArg (fun id : String => id.toList.reverse) same
  have colon : ":".toList.reverse = [':'] := rfl
  simp only [String.toList_append, List.reverse_append, colon, List.singleton_append] at reversed
  have backs := eq_of_append_colon (by simpa using plain) (by simpa using free) reversed
  exact String.toList_inj.mp (List.reverse_injective backs)

theorem idIn_append {path id more : String} (within : IdIn path id) (plain : ':' ∉ more.toList) :
    IdIn path (id ++ more) := by
  obtain ⟨tail, rfl, free⟩ := within
  refine ⟨tail ++ more, by simp [String.append_assoc], ?_⟩
  simp [free, plain]

namespace Findings

theorem plainId_in {path name : String} {owner : Option String} (named : IsName name)
    (owned : ∀ text ∈ owner, IsName text) : IdIn path (plainId path name owner) := by
  have free := colon_notMem_of_isName named
  cases owner with
  | none => exact ⟨name, rfl, free⟩
  | some text =>
      refine ⟨text ++ "." ++ name, by simp [plainId, toString, String.append_assoc], ?_⟩
      simp [colon_notMem_of_isName (owned text rfl), free]

theorem firstFree_eq (used : List String) (candidate : Nat → String) (limit : Nat) :
    ∀ suffix, ∃ i, firstFree used candidate limit suffix = candidate i := by
  induction limit with
  | zero => exact fun suffix => ⟨suffix, rfl⟩
  | succ limit ih =>
      intro suffix
      rw [firstFree]
      split
      · exact ih (suffix + 1)
      · exact ⟨suffix, rfl⟩

theorem freshId_in {findings : Findings} {name : String} {owner : Option String} (line : Nat)
    (named : IsName name) (owned : ∀ text ∈ owner, IsName text) :
    IdIn findings.file (findings.freshId name owner line) := by
  have plain : IdIn findings.file (plainId findings.file name owner) := plainId_in named owned
  have numbered : IdIn findings.file s!"{plainId findings.file name owner}#{line}" :=
    idIn_append (idIn_append plain (by decide)) (Text.without_nat rfl line)
  unfold freshId
  dsimp only
  split
  · exact plain
  · split
    · exact numbered
    · obtain ⟨i, same⟩ := firstFree_eq _ (fun suffix : Nat =>
        s!"{plainId findings.file name owner}#{line}.{suffix}") _ 2
      rw [same]
      exact idIn_append (idIn_append numbered (by decide)) (Text.without_nat rfl i)

/-- The ids of a file are distinct and begin with its path; open classes have names that may stand in ids. -/
structure Identified (findings : Findings) : Prop where
  distinct : (findings.routines.map (·.id)).Nodup
  within : ∀ routine ∈ findings.routines, IdIn findings.file routine.id
  classes : ∀ scope ∈ findings.scopes, ∀ name, scope.kind = .classBody name → IsName name

theorem enclosingClass_holds {P : String → Prop} {findings : Findings}
    (classes : ∀ scope ∈ findings.scopes, ∀ name, scope.kind = .classBody name → P name) :
    ∀ name ∈ findings.enclosingClass?, P name := by
  intro name held
  obtain ⟨scope, first, held⟩ := Option.bind_eq_some_iff.mp held
  cases kind : scope.kind with
  | routine place => simp [kind] at held
  | classBody inner =>
      rw [kind] at held
      rw [← Option.some.inj held]
      exact classes scope (List.mem_of_mem_head? first) inner kind

theorem owner_named {findings : Findings}
    (classes : ∀ scope ∈ findings.scopes, ∀ name, scope.kind = .classBody name → IsName name)
    {receiver : Option String} (received : ∀ owner ∈ receiver, IsName owner) :
    ∀ owner ∈ receiver.or findings.enclosingClass?, IsName owner := by
  cases receiver with
  | none => exact enclosingClass_holds classes
  | some owner => exact received

theorem openRoutine_identified {findings : Findings} (identified : findings.Identified) {name : String}
    (line depth : Nat) (kind : RoutineKind) (isAsync exported : Bool) {receiver : Option String}
    (named : IsName name) (received : ∀ owner ∈ receiver, IsName owner) :
    (findings.openRoutine name line depth kind isAsync exported receiver).Identified := by
  have owned := owner_named identified.classes received
  refine ⟨?_, ?_, ?_⟩
  · simp only [openRoutine, List.map_append, List.map_cons, List.map_nil]
    refine List.nodup_append.mpr ⟨identified.distinct, by simp, ?_⟩
    intro old member new added same
    rw [List.mem_singleton.mp added] at same
    exact freshId_notMem findings name _ line (same ▸ member)
  · intro routine member
    rcases List.mem_append.mp member with member | member
    · exact identified.within routine member
    · rw [List.mem_singleton.mp member]
      exact freshId_in line named owned
  · intro scope member name kind
    rcases List.mem_cons.mp member with rfl | member
    · cases kind
    · exact identified.classes scope member name kind

theorem declare_identified {findings : Findings} (identified : findings.Identified) {declaration : Declaration}
    (line depth : Nat) (named : declaration.Named) : (findings.declare declaration line depth).Identified := by
  cases declaration with
  | routine name kind isAsync exported receiver =>
      exact openRoutine_identified identified line depth kind isAsync exported named.1 named.2
  | classBody name exported =>
      refine ⟨identified.distinct, identified.within, ?_⟩
      intro scope member inner kind
      rcases List.mem_cons.mp member with rfl | member
      · rw [← ScopeKind.classBody.inj kind]
        exact named
      · exact identified.classes scope member inner kind

theorem recordLine_identified {findings : Findings} (identified : findings.Identified)
    (code callText raw : List Char) (line : Nat) :
    (findings.recordLine code callText raw line).Identified := by
  have ids := recordLine_map Routine.id findings code callText raw line fun _ => rfl
  refine ⟨ids ▸ identified.distinct, ?_, ?_⟩
  · intro routine member
    have among : routine.id ∈ findings.routines.map Routine.id := ids ▸ List.mem_map_of_mem member
    obtain ⟨before, held, same⟩ := List.mem_map.mp among
    rw [recordLine_file, ← same]
    exact identified.within before held
  · rw [recordLine_scopes]
    exact identified.classes

theorem identified_kept : Kept Identified := by
  intro line first second change identified
  cases change with
  | imports targets => exact ⟨identified.distinct, identified.within, identified.classes⟩
  | exported names => exact ⟨identified.distinct, identified.within, identified.classes⟩
  | published names => exact ⟨identified.distinct, identified.within, identified.classes⟩
  | closed p =>
      refine ⟨identified.distinct, identified.within, ?_⟩
      intro scope member
      exact identified.classes scope ((List.dropWhile_sublist p).subset member)
  | opened opens =>
      refine ⟨identified.distinct, identified.within, ?_⟩
      intro scope member name kind
      rcases mem_startBody member with held | ⟨_, before, held, rfl⟩
      · exact identified.classes scope held name kind
      · exact identified.classes before held name kind
  | declared declaration depth named => exact declare_identified identified line depth named
  | recorded code callText raw => exact recordLine_identified identified code callText raw line

end Findings

theorem findingsOf_identified (path : String) (dialect : Dialect) (lines : List (List Char)) :
    (findingsOf path dialect lines).Identified := by
  apply findingsOf_keeps Findings.identified_kept
  exact ⟨by simp, by simp, by simp⟩

theorem finish_ids (findings : Findings) :
    findings.finish.routines.map (·.id) = findings.routines.map (·.id) := by
  simp [Findings.finish]

theorem ofText_ids_nodup (path text : String) (dialect : Dialect) :
    ((ofText path text dialect).routines.map (·.id)).Nodup := by
  rw [ofText, finish_ids]
  exact (findingsOf_identified path dialect _).distinct

theorem ofText_ids_in (path text : String) (dialect : Dialect) :
    ∀ id ∈ (ofText path text dialect).routines.map (·.id), IdIn path id := by
  intro id member
  rw [ofText, finish_ids] at member
  obtain ⟨routine, held, rfl⟩ := List.mem_map.mp member
  rw [← findingsOf_file path dialect (Text.lines text.toList)]
  exact (findingsOf_identified path dialect _).within routine held

end FlowAtlas.Extraction
