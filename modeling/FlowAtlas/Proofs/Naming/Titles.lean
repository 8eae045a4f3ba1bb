import FlowAtlas.Naming.Title
import FlowAtlas.Proofs.Text.Separators
import FlowAtlas.Proofs.Text.Words

namespace FlowAtlas

namespace Pattern

theorem replaceFrom_sublist (pattern : Pattern) (s : List Char) : ∀ (skip : Nat) (behind : List Char),
    (pattern.replaceFrom (fun _ => []) skip behind s).Sublist s := by
  -- Matches are taken out, by induction on the text; the rest stays as it is.
  induction s with
  | nil =>
      intro skip behind
      cases skip <;> exact List.Sublist.refl []
  | cons c rest ih =>
      intro skip behind
      cases skip with
      | succ skip => exact (ih skip (c :: behind)).cons c
      | zero =>
          rw [replaceFrom]
          split
          · exact (ih _ (c :: behind)).cons c
          · exact (ih 0 (c :: behind)).cons_cons c

end Pattern

namespace Text

theorem upperRuns_codes : ∀ run ∈ upperRuns,
    128 ≤ run.first + run.shift ∨ 65 ≤ run.first + run.shift ∧ run.last + run.shift ≤ 90 := by
  decide +kernel

theorem upperExpansions_codes : ∀ entry ∈ upperExpansions, ∀ code ∈ entry.2, 128 ≤ code ∨ 65 ≤ code ∧ code ≤ 90 := by
  decide +kernel

theorem image_codes {code image : Nat} (found : CaseRun.image? upperRuns code = some image) :
    128 ≤ image ∨ 65 ≤ image ∧ image ≤ 90 := by
  obtain ⟨run, first, rfl⟩ := Option.map_eq_some_iff.mp found
  have covered := List.find?_some first
  have codes := upperRuns_codes run (List.mem_of_find?_eq_some first)
  simp only [CaseRun.covers, Bool.and_eq_true, decide_eq_true_eq] at covered
  omega

theorem toNat_ofNat (code : Nat) : (Char.ofNat code).toNat = code ∨ (Char.ofNat code).toNat = 0 := by
  by_cases known : code.isValidChar
  · exact Or.inl (congrArg Char.toNat (dif_pos known))
  · exact Or.inr (congrArg Char.toNat (dif_neg known))

def IsMark (mark : Char) : Prop := isWord mark = false ∧ 0 < mark.toNat ∧ mark.toNat < 128

instance (mark : Char) : Decidable (IsMark mark) :=
  inferInstanceAs (Decidable (isWord mark = false ∧ 0 < mark.toNat ∧ mark.toNat < 128))

section marks

variable {mark : Char} (isMark : IsMark mark)
include isMark

theorem IsMark.ne_ofNat {code : Nat} (codes : 128 ≤ code ∨ 65 ≤ code ∧ code ≤ 90) : mark ≠ Char.ofNat code := by
  have capitals : ∀ code < 128, 65 ≤ code ∧ code ≤ 90 → isWord (Char.ofNat code) = true := by decide
  obtain ⟨other, visible, ascii⟩ := isMark
  intro same
  have valid : mark.toNat = code ∨ mark.toNat = 0 := same ▸ toNat_ofNat code
  rcases codes with beyond | capital
  · omega
  · have never := capitals code (by omega) capital
    rw [← same, other] at never
    cases never

theorem IsMark.ne_of_isWord {c : Char} (word : isWord c = true) : mark ≠ c := by
  rintro rfl
  rw [isMark.1] at word
  cases word

theorem upperChar_noMark {c : Char} (word : isWord c = true) : mark ∉ upperChar c := by
  have uppers : ∀ code < 128, isWord (Char.ofNat code) = true → isWord (Char.ofNat code).toUpper = true := by decide
  intro member
  rw [upperChar] at member
  split at member
  · rename_i small
    have upper := uppers c.toNat small
    rw [Char.ofNat_toNat] at upper
    exact isMark.ne_of_isWord (upper word) (List.mem_singleton.mp member)
  · split at member
    · rename_i codes found
      obtain ⟨code, listed, same⟩ := List.mem_map.mp member
      obtain ⟨front, back, split, -⟩ := List.lookup_eq_some_iff.mp found
      have entry : (c.toNat, codes) ∈ upperExpansions := by
        rw [split]
        exact List.mem_append_right _ List.mem_cons_self
      exact isMark.ne_ofNat (upperExpansions_codes _ entry code listed) same.symm
    · split at member
      · rename_i code found
        exact isMark.ne_ofNat (image_codes found) (List.mem_singleton.mp member)
      · exact isMark.ne_of_isWord word (List.mem_singleton.mp member)

end marks

end Text

namespace Naming

theorem bareName_subset (name : List Char) : bareName name ⊆ name := by
  rw [bareName]
  split
  · exact List.Subset.refl _
  · exact (Pattern.replaceFrom_sublist _ name 0 []).subset

theorem spaceHumps_subset (s : List Char) : spaceHumps s ⊆ ' ' :: s := by
  induction s using spaceHumps.induct with
  | case1 c d rest hump ih =>
      rw [spaceHumps, if_pos hump]
      grind
  | case2 c d rest level ih =>
      rw [spaceHumps, if_neg level]
      grind
  | case3 s short =>
      rw [spaceHumps]
      · exact List.subset_cons_self _ _
      · exact short

/-- A title of a name of word characters has none but these, their upper case and blanks. -/
theorem title_noMark {name : String} (word : ∀ c ∈ name.toList, Text.isWord c = true) {mark : Char}
    (isMark : Text.IsMark mark) (visible : mark ≠ ' ') : mark ∉ (title name).toList := by
  -- Blanks and what is left of the name make up the words.
  have kept : ∀ piece ∈ Text.words (spaceHumps ((bareName name.toList).map fun c => if c == '_' then ' ' else c)),
      ∀ c ∈ piece, c = ' ' ∨ Text.isWord c = true := by
    intro piece listed c member
    have spaced := (Text.infix_of_mem_words listed).subset member
    rcases List.mem_cons.mp (spaceHumps_subset _ spaced) with blank | shown
    · exact Or.inl blank
    · obtain ⟨d, bare, rfl⟩ := List.mem_map.mp shown
      split
      · exact Or.inl rfl
      · exact Or.inr (word d (bareName_subset _ bare))
  rw [title, String.toList_ofList]
  intro member
  rcases Text.mem_intercalate member with blank | ⟨part, listed, held⟩
  · exact visible (List.mem_singleton.mp blank)
  · obtain ⟨piece, among, rfl⟩ := List.mem_map.mp listed
    have known := kept piece among
    cases piece with
    | nil => cases held
    | cons c rest =>
        rcases List.mem_append.mp held with first | later
        · rcases known c List.mem_cons_self with rfl | counted
          · exact visible (List.mem_singleton.mp first)
          · exact Text.upperChar_noMark isMark counted first
        · rcases known mark (List.mem_cons_of_mem _ later) with blank | counted
          · exact visible blank
          · exact isMark.ne_of_isWord counted rfl

end Naming

end FlowAtlas
