import FlowAtlas.Text.Lines
import Mathlib.Data.List.DropRight

namespace FlowAtlas.Text

section trimming

variable {gap : List Char} (blank : ∀ c ∈ gap, isBlank c = true)

include blank

theorem trimStart_blank_append (s : List Char) : trimStart (gap ++ s) = trimStart s :=
  List.dropWhile_append_of_pos blank

theorem trimEnd_append_blank (s : List Char) : trimEnd (s ++ gap) = trimEnd s := by
  have reversed : ∀ c ∈ gap.reverse, isBlank c = true := fun c member => blank c (List.mem_reverse.mp member)
  rw [trimEnd, trimEnd, List.reverse_append, List.dropWhile_append_of_pos reversed]

theorem trim_blank_append (s : List Char) : trim (gap ++ s) = trim s := by
  rw [trim, trim, trimStart_blank_append blank]

theorem trim_append_blank (s : List Char) : trim (s ++ gap) = trim s := by
  rw [trim, trim, trimStart, List.dropWhile_append]
  split
  · rename_i empty
    have nothing : trimStart s = [] := List.isEmpty_iff.mp empty
    rw [nothing, List.dropWhile_eq_nil_iff.mpr blank]
  · exact trimEnd_append_blank blank _

end trimming

section solid

def EndsSolid (s : List Char) : Prop := ∃ c ∈ s.getLast?, isBlank c = false

theorem endsSolid_append (front : List Char) {s : List Char} (ends : EndsSolid s) : EndsSolid (front ++ s) := by
  obtain ⟨c, last, solid⟩ := ends
  refine ⟨c, ?_, solid⟩
  rw [List.getLast?_append, last]
  rfl

theorem endsSolid_literal {chars : List Char} (ends : EndsSolid chars) : EndsSolid (String.ofList chars).toList := by
  rwa [String.toList_ofList]

theorem trimEnd_solid {s : List Char} (ends : EndsSolid s) : trimEnd s = s := by
  obtain ⟨c, last, solid⟩ := ends
  obtain ⟨front, rfl⟩ := List.getLast?_eq_some_iff.mp last
  rw [trimEnd, List.reverse_append, List.reverse_singleton, List.singleton_append,
    List.dropWhile_cons_of_neg (by simp [solid]), List.reverse_cons, List.reverse_reverse]

theorem trim_solid {s : List Char} (begins : ∃ c ∈ s.head?, isBlank c = false) (ends : EndsSolid s) : trim s = s := by
  obtain ⟨c, first, solid⟩ := begins
  obtain ⟨rest, rfl⟩ := List.head?_eq_some_iff.mp first
  rw [trim, trimStart, List.dropWhile_cons_of_neg (by simp [solid]), trimEnd_solid ends]

end solid

def isMargin (c : Char) : Bool := c == ' ' || c == '\t'

/-- A line without the spaces and tabs that it begins and ends with. -/
def unmargined (line : List Char) : List Char := (line.dropWhile isMargin).rdropWhile isMargin

/-- The lines of a text without the spaces and tabs around them, and without lines of nothing else at its end. -/
def innerLines (s : List Char) : List (List Char) := ((lines s).map unmargined).rdropWhile List.isEmpty

theorem isBlank_of_isMargin {c : Char} (margin : isMargin c = true) : isBlank c = true := by
  rcases Bool.or_eq_true_iff.mp margin with space | tab
  · rw [eq_of_beq space]
    decide
  · rw [eq_of_beq tab]
    decide

theorem mem_takeWhile_isMargin {c : Char} {s : List Char} (member : c ∈ s.takeWhile isMargin) : isBlank c = true :=
  isBlank_of_isMargin (List.mem_takeWhile_imp member)

theorem unmargined_split (line : List Char) : ∃ left right, (∀ c ∈ left, isBlank c = true) ∧
    (∀ c ∈ right, isBlank c = true) ∧ line = left ++ (unmargined line ++ right) := by
  let body := line.dropWhile isMargin
  have back : body = body.rdropWhile isMargin ++ (body.reverse.takeWhile isMargin).reverse := by
    rw [List.rdropWhile, ← List.reverse_append, List.takeWhile_append_dropWhile, List.reverse_reverse]
  refine ⟨line.takeWhile isMargin, (body.reverse.takeWhile isMargin).reverse, ?_, ?_, ?_⟩
  · exact fun c member => mem_takeWhile_isMargin member
  · exact fun c member => mem_takeWhile_isMargin (List.mem_reverse.mp member)
  · rw [unmargined, ← back, List.takeWhile_append_dropWhile]

end FlowAtlas.Text
