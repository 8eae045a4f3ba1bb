import FlowAtlas.Proofs.Extraction.Growth
import FlowAtlas.Proofs.Extraction.Ids
import FlowAtlas.Proofs.Text.Separators
import Std.Data.String.ToInt

namespace FlowAtlas

def Routine.isNamesake (name : String) (owner : Option String) (routine : Routine) : Bool :=
  routine.name == name && routine.owner == owner

namespace Extraction

theorem IsName.notMem {name : String} (named : IsName name) {mark : Char} (outside : Text.isWord mark = false)
    (other : mark ≠ '~') : mark ∉ name.toList := by
  intro member
  rcases named mark member with word | tilde
  · rw [outside] at word
    cases word
  · exact other tilde

namespace Findings

/-- The id of a routine behind others of its file. -/
def idBehind (path : String) (earlier : List Routine) (name : String) (owner : Option String) (line : Int) : String :=
  let plain := plainId path name owner
  if earlier.any (Routine.isNamesake name owner) then s!"{plain}#{line}" else plain

def idTail (name : String) : Option String → List Char
  | some owner => owner.toList ++ '.' :: name.toList
  | none => name.toList

theorem plainId_toList (path name : String) (owner : Option String) :
    (plainId path name owner).toList = path.toList ++ ':' :: idTail name owner := by
  cases owner <;> simp [plainId, idTail, toString]

theorem hash_notMem_idTail {name : String} {owner : Option String} (named : IsName name)
    (owned : ∀ text ∈ owner, IsName text) : '#' ∉ idTail name owner := by
  have hash : ∀ {text : String}, IsName text → '#' ∉ text.toList := fun named => named.notMem (by decide) (by decide)
  cases owner with
  | none => exact hash named
  | some text => simp [idTail, hash named, hash (owned text rfl)]

theorem plainId_inj {path name other : String} {owner holder : Option String} (named : IsName name)
    (owned : ∀ text ∈ owner, IsName text) (called : IsName other) (held : ∀ text ∈ holder, IsName text)
    (same : plainId path name owner = plainId path other holder) : name = other ∧ owner = holder := by
  have point : ∀ {text : String}, IsName text → '.' ∉ text.toList := fun named => named.notMem (by decide) (by decide)
  have tails : idTail name owner = idTail other holder := by
    have chars := congrArg String.toList same
    rw [plainId_toList, plainId_toList] at chars
    exact (List.cons.inj (List.append_cancel_left chars)).2
  cases owner with
  | none =>
      cases holder with
      | none => exact ⟨String.toList_inj.mp tails, rfl⟩
      | some text =>
          have pointed : '.' ∈ name.toList := by
            change name.toList = text.toList ++ '.' :: other.toList at tails
            simp [tails]
          exact absurd pointed (point named)
  | some text =>
      cases holder with
      | none =>
          have pointed : '.' ∈ other.toList := by
            change text.toList ++ '.' :: name.toList = other.toList at tails
            simp [← tails]
          exact absurd pointed (point called)
      | some word =>
          obtain ⟨owners, names⟩ := Text.cut_inj (point (owned text rfl)) (point (held word rfl)) tails
          rw [String.toList_inj.mp names, String.toList_inj.mp owners]
          exact ⟨rfl, rfl⟩

theorem numberedId_toList (path name : String) (owner : Option String) (line : Int) :
    s!"{plainId path name owner}#{line}".toList =
      path.toList ++ ':' :: (idTail name owner ++ '#' :: (toString line).toList) := by
  have whole : s!"{plainId path name owner}#{line}" = plainId path name owner ++ "#" ++ toString line := rfl
  have hash : "#".toList = ['#'] := rfl
  rw [whole, String.toList_append, String.toList_append, plainId_toList, hash, List.append_assoc, List.append_assoc]
  rfl

/-- The ids of a file, each from the name and the owner of its routine and of those before. -/
structure Ided (findings : Findings) : Prop where
  ids : ∀ (place : Nat) (routine : Routine), findings.routines[place]? = some routine →
    routine.id = idBehind findings.file (findings.routines.take place) routine.name routine.owner routine.line
  names : ∀ routine ∈ findings.routines, IsName routine.name
  owners : ∀ routine ∈ findings.routines, ∀ owner ∈ routine.owner, IsName owner

section fresh

variable {findings : Findings} (ided : findings.Ided)

include ided

theorem mem_ids {id : String} (used : id ∈ findings.routines.map (·.id)) :
    ∃ routine ∈ findings.routines, id = plainId findings.file routine.name routine.owner ∨
      id = s!"{plainId findings.file routine.name routine.owner}#{routine.line}" := by
  obtain ⟨routine, member, rfl⟩ := List.mem_map.mp used
  obtain ⟨place, found⟩ := List.mem_iff_getElem?.mp member
  refine ⟨routine, member, ?_⟩
  rw [ided.ids place routine found, idBehind]
  split
  · exact Or.inr rfl
  · exact Or.inl rfl

variable {name : String} {owner : Option String} (named : IsName name) (owned : ∀ text ∈ owner, IsName text)

include named owned

theorem plainId_used : plainId findings.file name owner ∈ findings.routines.map (·.id) ↔
    findings.routines.any (Routine.isNamesake name owner) = true := by
  constructor
  · intro used
    obtain ⟨routine, member, plain | numbered⟩ := mem_ids ided used
    · obtain ⟨names, owners⟩ := plainId_inj named owned (ided.names routine member) (ided.owners routine member) plain
      exact List.any_eq_true.mpr ⟨routine, member, by simp [Routine.isNamesake, names, owners]⟩
    · have chars := congrArg String.toList numbered
      rw [plainId_toList, numberedId_toList] at chars
      have tails := (List.cons.inj (List.append_cancel_left chars)).2
      exact absurd (by simp [tails]) (hash_notMem_idTail named owned)
  · intro among
    -- The first namesake has none before it.
    obtain ⟨routine, found⟩ := Option.isSome_iff_exists.mp ((List.find?_isSome (p := Routine.isNamesake name owner)).mpr
      (List.any_eq_true.mp among))
    obtain ⟨namesake, before, behind, split, first⟩ := List.find?_eq_some_iff_append.mp found
    have placed : findings.routines[before.length]? = some routine := by simp [split]
    have alone : (findings.routines.take before.length).any (Routine.isNamesake name owner) = false := by
      rw [split, List.take_left, List.any_eq_false]
      exact fun other member => by simpa using first other member
    obtain ⟨names, owners⟩ : routine.name = name ∧ routine.owner = owner := by
      simpa [Routine.isNamesake] using namesake
    refine List.mem_map.mpr ⟨routine, List.mem_of_getElem? placed, ?_⟩
    rw [ided.ids _ routine placed, names, owners, idBehind, alone]
    rfl

theorem numberedId_unused {line : Int} (later : ∀ routine ∈ findings.routines, routine.line < line) :
    s!"{plainId findings.file name owner}#{line}" ∉ findings.routines.map (·.id) := by
  intro used
  obtain ⟨routine, member, same⟩ := mem_ids ided used
  have free := hash_notMem_idTail named owned
  have clean := hash_notMem_idTail (ided.names routine member) (ided.owners routine member)
  rcases same with plain | numbered
  · have chars := congrArg String.toList plain
    rw [plainId_toList, numberedId_toList] at chars
    have tails := (List.cons.inj (List.append_cancel_left chars)).2
    exact absurd (by simp [← tails]) clean
  · have chars := congrArg String.toList numbered
    rw [numberedId_toList, numberedId_toList] at chars
    have tails := (List.cons.inj (List.append_cancel_left chars)).2
    have digits : toString line = toString routine.line := String.toList_inj.mp (Text.cut_inj free clean tails).2
    exact absurd (later routine member) (Int.not_lt.mpr (Int.le_of_eq (Int.repr_injective digits)))

theorem freshId_eq {line : Nat} (later : ∀ routine ∈ findings.routines, routine.line < line) :
    findings.freshId name owner line = idBehind findings.file findings.routines name owner line := by
  -- The number behind the line is never needed.
  have unused := numberedId_unused ided named owned later
  have used := plainId_used ided named owned
  have numbered : s!"{plainId findings.file name owner}#{line}" =
    s!"{plainId findings.file name owner}#{(line : Int)}" := rfl
  have spare : ∀ {id : String}, id ∉ findings.routines.map (·.id) →
      (!(findings.routines.map (·.id)).contains id) = true := by
    intro id absent
    simpa using absent
  rw [freshId, idBehind, numbered]
  by_cases among : findings.routines.any (Routine.isNamesake name owner) = true
  · rw [if_pos among, if_neg (by simpa using used.mpr among)]
    exact if_pos (spare unused)
  · rw [if_neg among, if_pos (spare (used.not.mpr among))]

end fresh

end Findings

end Extraction

end FlowAtlas
