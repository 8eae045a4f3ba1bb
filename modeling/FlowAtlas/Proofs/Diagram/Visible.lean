import FlowAtlas.Proofs.Diagram.Parts
import FlowAtlas.Proofs.Naming.Letters

namespace FlowAtlas

namespace Text

def Visible (text : String) : Prop := ∃ c ∈ text.toList, isBlank c = false

instance (text : String) : Decidable (Visible text) := List.decidableBEx (isBlank · = false) text.toList

theorem Visible.append_right {front back : String} (visible : Visible back) : Visible (front ++ back) := by
  obtain ⟨c, member, solid⟩ := visible
  refine ⟨c, ?_, solid⟩
  rw [String.toList_append]
  exact List.mem_append_right _ member

section upper

theorem upperRuns_solid : ∀ run ∈ upperRuns, ∀ range ∈ blankRanges,
    range.2 < run.first + run.shift ∨ run.last + run.shift < range.1 := by
  decide +kernel

theorem upperExpansions_solid : ∀ entry ∈ upperExpansions, entry.2 ≠ [] ∧
    ∀ code ∈ entry.2, isBlank (Char.ofNat code) = false := by
  decide +kernel

theorem image_solid {code image : Nat} (found : CaseRun.image? upperRuns code = some image) :
    isBlank (Char.ofNat image) = false := by
  obtain ⟨run, first, rfl⟩ := Option.map_eq_some_iff.mp found
  have covered := List.find?_some first
  have apart := upperRuns_solid run (List.mem_of_find?_eq_some first)
  have visible : ∀ range ∈ blankRanges, 0 < range.1 := by decide
  simp only [CaseRun.covers, Bool.and_eq_true, decide_eq_true_eq] at covered
  apply List.any_eq_false.mpr
  intro range listed
  have outside := apart range listed
  have positive := visible range listed
  simp only [Bool.and_eq_true, decide_eq_true_eq]
  rcases toNat_ofNat ((code : Int) + run.shift).toNat with same | none <;> omega

theorem upperChar_solid {c : Char} (solid : isBlank c = false) : Unbroken (upperChar c) := by
  have alone : ∀ d, isBlank d = false → Unbroken [d] := fun d other =>
    ⟨List.cons_ne_nil _ _, List.forall_mem_singleton.mpr other⟩
  rw [upperChar]
  split
  · rename_i ascii
    apply alone
    exact of_ascii (fun c => isBlank c = false → isBlank c.toUpper = false) (by decide) ascii solid
  · split
    · rename_i codes found
      obtain ⟨front, back, split, -⟩ := List.lookup_eq_some_iff.mp found
      have entry : (c.toNat, codes) ∈ upperExpansions := by
        rw [split]
        exact List.mem_append_right _ List.mem_cons_self
      obtain ⟨given, others⟩ := upperExpansions_solid _ entry
      exact ⟨by simpa using given, List.forall_mem_map.mpr others⟩
    · split
      · rename_i code found
        exact alone _ (image_solid found)
      · exact alone c solid

end upper

end Text

namespace Naming

open Text

theorem title_visible_iff (name : String) :
    Visible (title name) ↔ ∃ c ∈ name.toList, c ≠ '_' ∧ isBlank c = false := by
  have kept : (∃ c ∈ name.toList, c ≠ '_' ∧ isBlank c = false) ↔ Text.words (spaced name) ≠ [] := by
    have letters : (∃ c ∈ name.toList, c ≠ '_' ∧ isBlank c = false) ↔ (Text.words (spaced name)).flatten ≠ [] := by
      rw [flatten_words_spaced, Ne, List.filter_eq_nil_iff]
      simp
    rw [letters, not_iff_not]
    constructor
    · intro empty
      apply List.eq_nil_iff_forall_not_mem.mpr
      intro word member
      exact (unbroken_of_mem_words member).1 (List.flatten_eq_nil_iff.mp empty word member)
    · intro none
      rw [none]
      rfl
  rw [kept, Visible, title_eq, String.toList_ofList]
  constructor
  · rintro ⟨c, member, solid⟩ none
    rw [none] at member
    cases member
  · intro given
    obtain ⟨word, others, split⟩ := List.exists_cons_of_ne_nil given
    have member : word ∈ Text.words (spaced name) := split ▸ List.mem_cons_self
    obtain ⟨some, solid⟩ := unbroken_of_mem_words member
    obtain ⟨c, rest, rfl⟩ := List.exists_cons_of_ne_nil some
    obtain ⟨upper, visible⟩ := upperChar_solid (solid c List.mem_cons_self)
    obtain ⟨d, held⟩ := List.exists_mem_of_ne_nil _ upper
    have capital : d ∈ ((Text.words (spaced name)).map capitalize).flatten :=
      List.mem_flatten.mpr ⟨_, List.mem_map_of_mem member, List.mem_append_left rest held⟩
    have apart : d ≠ ' ' := by
      rintro rfl
      exact absurd (visible ' ' held) (by decide)
    have shown : d ∈ ((Text.words (spaced name)).map capitalize).flatten.filter fun c => c != ' ' :=
      List.mem_filter.mpr ⟨capital, bne_iff_ne.mpr apart⟩
    rw [← intercalate_filter (by decide)] at shown
    exact ⟨d, List.mem_of_mem_filter shown, visible d held⟩

end Naming

namespace Diagram

open Text

/-- A node presents a routine: by its title, and as a decision by its title and a question. -/
structure Node.Presents (node : Node) (routine : Routine) : Prop where
  called : node.routineId = some routine.id
  label : node.shape = .box ∧ node.label = Naming.title routine.name ∨
    node.shape = .diamond ∧ node.label = Naming.title routine.name ++ ": " ++ Naming.question routine.name

section visible

variable {selected : List Routine} {node : Node}

theorem question_visible (name : String) : Visible (Naming.question name) := by
  have listed : ∀ entry ∈ Naming.questions, Visible entry.2 := by decide
  rw [Naming.question]
  split
  · rename_i entry found
    exact listed entry (List.mem_of_find?_eq_some found)
  · decide

theorem Depicts.presents (depicts : Depicts selected node) : node.routineId = none ∧ Visible node.label ∨
    ∃ routine ∈ selected, node.Presents routine := by
  cases depicts with
  | start | alternative | result =>
      refine Or.inl ⟨rfl, ?_⟩
      dsimp only
      decide
  | @entry _ routine first => exact Or.inr ⟨routine, entryOf_mem_selected first, rfl, Or.inl ⟨rfl, rfl⟩⟩
  | @initializer _ routine member | @step _ routine _ member =>
      have among := afterEntry_subset selected (List.mem_of_mem_filter member)
      exact Or.inr ⟨routine, among, rfl, Or.inl ⟨rfl, rfl⟩⟩
  | @decision _ routine member =>
      have among := afterEntry_subset selected (List.mem_of_mem_filter member)
      exact Or.inr ⟨routine, among, rfl, Or.inr ⟨rfl, rfl⟩⟩

theorem Node.Presents.label_visible {routine : Routine} (presents : node.Presents routine) :
    Visible node.label ↔ node.shape = .diamond ∨ Visible (Naming.title routine.name) := by
  rcases presents.label with ⟨box, label⟩ | ⟨diamond, label⟩
  · simp [box, label]
  · simp only [diamond, label, true_or, iff_true]
    exact (question_visible routine.name).append_right

end visible

/-- Where word characters name the routines, what a node says of its routine shows something unless the name holds
nothing but underscores; and so does the label of each node that is no such box. -/
theorem ofSelection_visible {selected : List Routine}
    (named : ∀ routine ∈ selected, ∀ c ∈ routine.name.toList, isWord c = true) (layers : Table (List String)) :
    ∀ node ∈ (ofSelection selected layers).nodes, node.routineId = none ∧ Visible node.label ∨
      ∃ routine ∈ selected, node.Presents routine ∧
        (Visible (Naming.title routine.name) ↔ ∃ c ∈ routine.name.toList, c ≠ '_') ∧
        (Visible node.label ↔ node.shape = .diamond ∨ ∃ c ∈ routine.name.toList, c ≠ '_') := by
  intro node drawn
  rcases (depicts_nodes selected layers node drawn).presents with alone | ⟨routine, member, presents⟩
  · exact Or.inl alone
  · have solid : ∀ c ∈ routine.name.toList, isBlank c = false := by
      intro c held
      by_contra blank
      have word := named routine member c held
      rw [not_isWord_of_isBlank (Bool.not_eq_false _ ▸ blank)] at word
      cases word
    have title : Visible (Naming.title routine.name) ↔ ∃ c ∈ routine.name.toList, c ≠ '_' := by
      rw [Naming.title_visible_iff]
      constructor
      · rintro ⟨c, held, other, -⟩
        exact ⟨c, held, other⟩
      · rintro ⟨c, held, other⟩
        exact ⟨c, held, other, solid c held⟩
    refine Or.inr ⟨routine, member, presents, title, ?_⟩
    rw [presents.label_visible, title]

/-- A single underscore drawn as a decision and two of them as a box; the label of the box is empty. -/
theorem ofSelection_visible_underscores :
    let plain (name : String) : Routine := { id := name, name, file := "f", line := 1 }
    let branch : Decision := { kind := .loop, file := "f", line := 2, snippet := "while x:" }
    let selected : List Routine :=
      [plain "_main_", { plain "_" with importance := 9, decisions := [branch] }, plain "__"]
    (∀ routine ∈ selected, ∀ c ∈ routine.name.toList, isWord c = true) ∧
      (ofSelection selected []).nodes.map (·.label) =
        ["Main", ": Continue execution?", "Handle alternative", "", "Return result"] ∧
      ∀ node ∈ (ofSelection selected []).nodes, node.routineId = none ∧ Visible node.label ∨
        ∃ routine ∈ selected, node.Presents routine ∧
          (Visible (Naming.title routine.name) ↔ ∃ c ∈ routine.name.toList, c ≠ '_') ∧
          (Visible node.label ↔ node.shape = .diamond ∨ ∃ c ∈ routine.name.toList, c ≠ '_') := by
  intro plain branch selected
  have words : ∀ routine ∈ selected, routine.name.toList.all isWord = true := by decide
  have named : ∀ routine ∈ selected, ∀ c ∈ routine.name.toList, isWord c = true :=
    fun routine member => List.all_eq_true.mp (words routine member)
  exact ⟨named, by decide +kernel, ofSelection_visible named []⟩

end Diagram

end FlowAtlas
