import FlowAtlas.Text.Pieces
import Mathlib.Data.List.Basic
import Mathlib.Data.List.Infix

namespace FlowAtlas.Text

section pieces

variable {p : Char → Bool} {s piece : List Char}

theorem splitWhere_eq (p : Char → Bool) (s : List Char) : splitWhere p s = s.splitOnP p := by
  induction s with
  | nil => rfl
  | cons c rest ih =>
      obtain ⟨piece, pieces, split⟩ := List.exists_cons_of_ne_nil (List.splitOnP_ne_nil p rest)
      rw [splitWhere, ih, List.splitOnP_cons_eq_if_modifyHead, split]
      rfl

theorem flatten_splitWhere (p : Char → Bool) (s : List Char) : (splitWhere p s).flatten = s.filter fun c => !p c := by
  induction s with
  | nil => rfl
  | cons c rest ih =>
      rw [splitWhere]
      split
      · rename_i separates
        rw [List.flatten_cons, List.nil_append, ih, List.filter_cons_of_neg (by simp [separates])]
      · rename_i belongs
        rw [List.filter_cons_of_pos (by simp [belongs]), ← ih]
        cases splitWhere p rest <;> rfl

theorem infix_of_mem_splitWhere (member : piece ∈ splitWhere p s) : piece <:+: s := by
  -- The first piece begins the text, which the induction needs to put a character in front of it.
  have parts : ∀ first others, splitWhere p s = first :: others →
      first <+: s ∧ ∀ other ∈ others, other <:+: s := by
    clear member
    induction s with
    | nil =>
        intro first others split
        obtain ⟨rfl, rfl⟩ := List.cons.inj split
        exact ⟨List.prefix_refl _, List.forall_mem_nil _⟩
    | cons c rest ih =>
        obtain ⟨first, others, split⟩ := List.exists_cons_of_ne_nil (List.splitOnP_ne_nil p rest)
        rw [← splitWhere_eq] at split
        obtain ⟨begins, within⟩ := ih first others split
        rw [splitWhere, split]
        intro piece pieces same
        split at same
        · obtain ⟨rfl, rfl⟩ := List.cons.inj same
          refine ⟨List.nil_prefix, ?_⟩
          intro other listed
          rcases List.mem_cons.mp listed with rfl | later
          · exact begins.isInfix.trans (List.suffix_cons c rest).isInfix
          · exact (within other later).trans (List.suffix_cons c rest).isInfix
        · obtain ⟨rfl, rfl⟩ := List.cons.inj same
          refine ⟨(List.prefix_cons_inj c).mpr begins, ?_⟩
          intro other listed
          exact (within other listed).trans (List.suffix_cons c rest).isInfix
  obtain ⟨first, others, split⟩ := List.exists_cons_of_ne_nil (List.ne_nil_of_mem member)
  obtain ⟨begins, within⟩ := parts first others split
  rw [split] at member
  rcases List.mem_cons.mp member with rfl | later
  · exact begins.isInfix
  · exact within piece later

end pieces

theorem not_isWord_of_isBlank {c : Char} (blank : isBlank c = true) : isWord c = false := by
  have codes : ∀ range ∈ blankRanges, ∀ offset < 11, range.1 + offset ≤ range.2 →
      isWord (Char.ofNat (range.1 + offset)) = false := by
    decide +kernel
  obtain ⟨range, among, within⟩ := List.any_eq_true.mp blank
  simp only [Bool.and_eq_true, decide_eq_true_eq] at within
  have narrow : ∀ range ∈ blankRanges, range.2 - range.1 < 11 := by decide
  have close := narrow range among
  have found := codes range among (c.toNat - range.1) (by omega) (by omega)
  rwa [Nat.add_sub_cancel' within.1, Char.ofNat_toNat] at found

theorem of_ascii (holds : Char → Prop) (all : ∀ code < 128, holds (Char.ofNat code)) {c : Char}
    (ascii : c.toNat < 128) : holds c := by
  have found := all c.toNat ascii
  rwa [Char.ofNat_toNat] at found

theorem ascii_of_alphanum {c : Char} (letter : c.isAlphanum = true) : c.toNat < 128 := by
  have upTo : ∀ last : UInt32, last.toNat < 128 → c.val ≤ last → c.toNat < 128 :=
    fun last ascii within => Nat.lt_of_le_of_lt within ascii
  rcases Bool.or_eq_true_iff.mp letter with alpha | digit
  · rcases Bool.or_eq_true_iff.mp alpha with upper | lower
    · exact upTo 90 (by decide) (of_decide_eq_true upper).2
    · exact upTo 122 (by decide) (of_decide_eq_true (Bool.and_eq_true_iff.mp lower).2)
  · exact upTo 57 (by decide) (of_decide_eq_true (Bool.and_eq_true_iff.mp digit).2)

theorem isWord_of_alphanum {c : Char} (letter : c.isAlphanum = true) : isWord c = true := by
  rw [isWord, if_pos (ascii_of_alphanum letter), letter]
  rfl

theorem not_isBlank_of_isWord {c : Char} (word : isWord c = true) : isBlank c = false := by
  apply Bool.eq_false_iff.mpr
  intro blank
  rw [not_isWord_of_isBlank blank] at word
  cases word

theorem not_isBlank_of_alphanum {c : Char} (letter : c.isAlphanum = true) : isBlank c = false :=
  not_isBlank_of_isWord (isWord_of_alphanum letter)

def Unbroken (word : List Char) : Prop := word ≠ [] ∧ ∀ c ∈ word, isBlank c = false

theorem flatten_words (s : List Char) : (words s).flatten = s.filter fun c => !isBlank c := by
  rw [words, List.flatten_filter_not_isEmpty, flatten_splitWhere]

theorem unbroken_of_mem_words {s word : List Char} (member : word ∈ words s) : Unbroken word := by
  obtain ⟨listed, given⟩ := List.mem_filter.mp member
  refine ⟨by simpa using given, ?_⟩
  intro c held
  have kept : c ∈ s.filter fun c => !isBlank c := by
    rw [← flatten_splitWhere]
    exact List.mem_flatten.mpr ⟨word, listed, held⟩
  simpa using List.of_mem_filter kept

theorem infix_of_mem_words {s word : List Char} (member : word ∈ words s) : word <:+: s :=
  infix_of_mem_splitWhere (List.mem_of_mem_filter member)

theorem words_append_blank {c : Char} (blank : isBlank c = true) (front back : List Char) :
    words (front ++ c :: back) = words front ++ words back := by
  rw [words, words, words, splitWhere_eq, splitWhere_eq, splitWhere_eq, List.splitOnP_append_cons _ _ blank,
    List.filter_append]

theorem words_word {word : List Char} (unbroken : Unbroken word) : words word = [word] := by
  rw [words, splitWhere_eq, List.splitOnP_eq_singleton unbroken.2]
  simp [unbroken.1]

/-- Words with a blank between them are read back. -/
theorem words_intercalate {pieces : List (List Char)} (solid : ∀ piece ∈ pieces, Unbroken piece) :
    words ([' '].intercalate pieces) = pieces := by
  induction pieces with
  | nil => rfl
  | cons piece rest ih =>
      obtain ⟨first, others⟩ := List.forall_mem_cons.mp solid
      cases rest with
      | nil =>
          rw [List.intercalate_singleton]
          exact words_word first
      | cons next more =>
          rw [List.intercalate_cons_cons, List.append_assoc, List.singleton_append,
            words_append_blank (by decide), words_word first, ih others, List.singleton_append]

end FlowAtlas.Text
