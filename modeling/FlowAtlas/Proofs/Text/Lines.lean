import FlowAtlas.Text.Lines
import Mathlib.Data.List.TakeWhile

namespace FlowAtlas.Text

theorem lines_cons {c : Char} {rest : List Char} (apart : ∀ more, c = '\r' → rest = '\n' :: more → False) :
    lines (c :: rest) =
      if isLineBreak c then [] :: lines rest
      else (c :: (lines rest).headD []) :: (lines rest).tail := by
  rw [lines]
  · cases lines rest <;> rfl
  · exact apart

theorem lines_ne_nil {s : List Char} (given : s ≠ []) : lines s ≠ [] := by
  cases s using lines.fun_cases_unfolding with
  | case1 => exact absurd rfl given
  | _ => simp

/-- A line feed ends the lines of the text up to it. -/
theorem lines_append (front rest : List Char) :
    lines (front ++ '\n' :: rest) = lines (front ++ ['\n']) ++ lines rest := by
  induction front using lines.induct with
  | case1 =>
      have feed : ∀ s, lines ('\n' :: s) = [] :: lines s := fun s => lines_cons (by simp)
      simp [feed, lines]
  | case2 front ih => simp [lines, ih]
  | case3 c front other ends ih =>
      by_cases bare : c = '\r' ∧ front = []
      · simp [bare, lines]
      · have apart : ∀ s more, c = '\r' → front ++ '\n' :: s = '\n' :: more → False := by
          intro s more carriage same
          cases front with
          | nil => exact bare ⟨carriage, rfl⟩
          | cons d others => exact other others carriage (by rw [(List.cons.inj same).1])
        rw [List.cons_append, List.cons_append, lines_cons (apart rest), lines_cons (apart []), ih]
        simp [ends]
  | case4 c front _ inside _ ih | case5 c front _ inside _ _ _ ih =>
      have apart : ∀ s more, c = '\r' → front ++ '\n' :: s = '\n' :: more → False := by
        rintro s more rfl
        exact absurd (by decide) inside
      obtain ⟨line, others, first⟩ := List.exists_cons_of_ne_nil (lines_ne_nil (s := front ++ ['\n']) (by simp))
      rw [List.cons_append, List.cons_append, lines_cons (apart rest), lines_cons (apart []), ih, first]
      simp [inside]

theorem lines_oneLine (s : List Char) : ∀ line ∈ lines s, '\n' ∉ line := by
  induction s using lines.induct with
  | case1 => intro line member; cases member
  | case2 rest ih =>
      intro line member
      rw [lines] at member
      rcases List.mem_cons.mp member with rfl | member
      · exact List.not_mem_nil
      · exact ih line member
  | case3 c rest other breaks ih =>
      intro line member
      rw [lines, if_pos breaks] at member
      · rcases List.mem_cons.mp member with rfl | member
        · exact List.not_mem_nil
        · exact ih line member
      · exact other
  | case4 c rest other plain none ih =>
      have feed : c ≠ '\n' := by
        rintro rfl
        exact plain (by decide)
      intro line member
      rw [lines, if_neg plain, none] at member
      · rw [List.mem_singleton.mp member]
        simpa using feed.symm
      · exact other
  | case5 c rest other plain line others split ih =>
      have feed : c ≠ '\n' := by
        rintro rfl
        exact plain (by decide)
      rw [split] at ih
      intro line member
      rw [lines, if_neg plain, split] at member
      · rcases List.mem_cons.mp member with rfl | member
        · have tail := ih _ List.mem_cons_self
          simpa [feed.symm] using tail
        · exact ih line (List.mem_cons_of_mem _ member)
      · exact other

section indentation

theorem expandTabs_append (width : Nat) (first second : List Char) : ∀ column : Nat,
    ∃ further, expandTabs width column (first ++ second) =
      expandTabs width column first ++ expandTabs width further second := by
  induction first with
  | nil => exact fun column => ⟨column, rfl⟩
  | cons c rest ih =>
      intro column
      rw [List.cons_append, expandTabs, expandTabs]
      split
      · obtain ⟨further, split⟩ := ih (column + (width - column % width))
        refine ⟨further, ?_⟩
        dsimp only
        rw [split, List.append_assoc]
      · obtain ⟨further, split⟩ := ih (column + 1)
        exact ⟨further, by rw [split, List.cons_append]⟩

theorem mem_expandTabs {c : Char} (other : c ≠ '\t') {s : List Char} (member : c ∈ s) (width : Nat) :
    ∀ column : Nat, c ∈ expandTabs width column s := by
  induction s with
  | nil => cases member
  | cons d rest ih =>
      intro column
      rw [expandTabs]
      rcases List.mem_cons.mp member with rfl | later
      · rw [if_neg (by simpa using other)]
        exact List.mem_cons_self
      · split
        · exact List.mem_append_right _ (ih later _)
        · exact List.mem_cons_of_mem _ (ih later _)

theorem indentation_append {c : Char} (plain : isBlank c = false) {before : List Char} (member : c ∈ before)
    (rest : List Char) : indentation (before ++ rest) = indentation before := by
  have other : c ≠ '\t' := by
    rintro rfl
    exact absurd plain (by decide)
  obtain ⟨further, split⟩ := expandTabs_append 4 before rest 0
  have held : c ∈ expandTabs 4 0 before := mem_expandTabs other member 4 0
  rw [indentation, indentation, split, List.takeWhile_append, if_neg]
  intro whole
  have kept := List.takeWhile_eq_self_iff.mp ((List.takeWhile_prefix isBlank).eq_of_length whole) c held
  rw [plain] at kept
  cases kept

end indentation

end FlowAtlas.Text
