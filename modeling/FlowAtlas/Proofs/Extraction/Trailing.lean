import FlowAtlas.Proofs.Extraction.CalledNames
import FlowAtlas.Proofs.Pattern.Occurring

/-! Blanks and opening braces behind the code of a line. They call nothing, and they decide nothing unless the code
ends in a question mark or is a lone keyword. -/

namespace FlowAtlas.Extraction

open Pattern

def IsTrailing (c : Char) : Prop := Text.isBlank c = true ∨ c = '\x7b'

instance : DecidablePred IsTrailing := fun _ => inferInstanceAs (Decidable (_ ∨ _))

def IsSolid (text : List Char) : Prop := text ≠ [] ∧ ∀ c ∈ text, ¬IsTrailing c

instance : DecidablePred IsSolid := fun text =>
  @instDecidableAnd _ _ inferInstance (List.decidableBAll (¬IsTrailing ·) text)

theorem IsTrailing.not_word {c : Char} (trailing : IsTrailing c) : Text.isWord c = false := by
  rcases trailing with blank | rfl
  · exact Text.not_isWord_of_isBlank blank
  · decide

variable {tail : List Char} (trailing : ∀ c ∈ tail, IsTrailing c)

section calls

theorem startsName_word {c : Char} (other : Text.isWord c = false) : startsName c = false := by
  by_contra starts
  rw [isWord_of_startsName (Bool.not_eq_false _ ▸ starts)] at other
  cases other

include trailing

theorem isCalled_append (s : List Char) : isCalled (s ++ tail) = isCalled s := by
  have uncalled : ∀ {rest : List Char}, rest.Sublist tail → (rest.head? == some '(') = false := by
    intro rest kept
    rw [beq_eq_false_iff_ne]
    intro opens
    have trails := trailing '(' (kept.subset (List.mem_of_mem_head? opens))
    exact absurd trails (by decide)
  rw [isCalled, isCalled, List.dropWhile_append]
  split
  · rename_i empty
    rw [List.isEmpty_iff.mp empty, uncalled ((List.dropWhile_sublist _).trans (List.dropWhile_sublist _))]
    rfl
  · rw [List.dropWhile_append]
    split
    · rename_i empty
      rw [List.isEmpty_iff.mp empty, uncalled (List.dropWhile_sublist _)]
      rfl
    · rename_i given
      rw [List.head?_append_of_ne_nil _ (by simpa using given)]

theorem calledWords_trailing (inWord : Bool) : calledWords inWord tail = [] := by
  induction tail generalizing inWord with
  | nil => rfl
  | cons c rest ih =>
      have other := (trailing c List.mem_cons_self).not_word
      rw [calledWords, startsName_word other, Bool.and_false, Bool.false_and,
        ih fun d member => trailing d (List.mem_cons_of_mem _ member)]
      rfl

theorem calledWords_append (s : List Char) :
    ∀ inWord : Bool, calledWords inWord (s ++ tail) = calledWords inWord s := by
  induction s with
  | nil => exact calledWords_trailing trailing
  | cons c rest ih =>
      intro inWord
      have word : (c :: rest ++ tail).takeWhile Text.isWord = (c :: rest).takeWhile Text.isWord := by
        have none : tail.takeWhile Text.isWord = [] := by
          rw [List.takeWhile_eq_nil_iff]
          intro bound
          simp [(trailing tail[0] (List.getElem_mem bound)).not_word]
        rw [List.takeWhile_append, none, List.append_nil]
        split
        · rename_i whole
          exact ((List.takeWhile_prefix _).eq_of_length whole).symm
        · rfl
      rw [List.cons_append, calledWords, calledWords, ih, ← List.cons_append, isCalled_append trailing, word]

theorem calledNames_append (s : List Char) : calledNames (s ++ tail) = calledNames s := by
  rw [calledNames_eq, calledNames_eq, calledWords_append trailing]

end calls

section decisions

variable {s : List Char} (trimmed : ∀ c, s.getLast? = some c → Text.isBlank c = false)

include trailing trimmed

theorem append_split {word blank rest : List Char} {c : Char} (solid : ∀ d ∈ word, ¬IsTrailing d)
    (blanks : ∀ d ∈ blank, Text.isBlank d = true) (other : s ≠ word)
    (split : s ++ tail = word ++ (blank ++ c :: rest)) : ∃ more, s = word ++ (blank ++ c :: more) := by
  -- What begins with a word and blanks goes on inside the text, unless the text is the word alone.
  have ends : ∀ {front : List Char}, (∀ d ∈ front, Text.isBlank d = true) → s ≠ word ++ front := by
    intro front blanks same
    rcases List.eq_nil_or_concat front with rfl | ⟨front, last, rfl⟩
    · exact other (same.trans (List.append_nil word))
    · have solid := trimmed last (by simp [same])
      rw [blanks last (by simp)] at solid
      cases solid
  rcases List.append_eq_append_iff.mp split with ⟨more, rfl, behind⟩ | ⟨more, rfl, behind⟩
  · cases more with
    | nil => exact absurd (List.append_nil s).symm other
    | cons d more => exact absurd (trailing d (by simp [behind])) (solid d (by simp))
  · rcases List.append_eq_append_iff.mp behind with ⟨left, rfl, rest⟩ | ⟨left, rfl, _⟩
    · cases left with
      | nil => exact absurd (by rw [List.append_nil]) (ends blanks)
      | cons d left =>
          obtain ⟨rfl, _⟩ := List.cons.inj rest
          exact ⟨left, rfl⟩
    · exact absurd rfl (ends fun d member => blanks d (List.mem_append_left _ member))

theorem occursIn_keyword {word : String} {between : Pattern} {accepts : Char → Bool} (plain : between.Plain)
    (blanks : ∀ text, between.Spells text → ∀ d ∈ text, Text.isBlank d = true)
    (solid : IsSolid word.toList) (other : s ≠ word.toList) :
    (inOrder [atStart, literal word, between, one accepts]).occursIn (s ++ tail) =
      (inOrder [atStart, literal word, between, one accepts]).occursIn s := by
  have parts : (inOrder [literal word, between, one accepts]).Plain := ⟨by simp [literal], plain, trivial⟩
  rw [Bool.eq_iff_iff]
  change (seq atStart (inOrder [literal word, between, one accepts])).occursIn _ = true ↔
    (seq atStart (inOrder [literal word, between, one accepts])).occursIn _ = true
  rw [occursIn_anchored parts, occursIn_anchored parts]
  constructor
  · rintro ⟨_, back, ⟨_, _, lead, ⟨blank, _, spelled, ⟨c, accepted, rfl⟩, rfl⟩, rfl⟩, split⟩
    rw [spells_literal.mp lead, List.append_assoc, List.append_assoc] at split
    obtain ⟨more, whole⟩ := append_split trailing trimmed solid.2 (blanks blank spelled) other split
    exact ⟨_, more, ⟨_, _, lead, ⟨blank, _, spelled, ⟨c, accepted, rfl⟩, rfl⟩, rfl⟩,
      by rw [whole, spells_literal.mp lead, List.append_assoc, List.append_assoc]; rfl⟩
  · rintro ⟨text, back, spelled, rfl⟩
    exact ⟨text, back ++ tail, spelled, List.append_assoc _ _ _⟩

omit trimmed

theorem occursIn_ternary (unasked : s.getLast? ≠ some '?') :
    (Decision.evidence .ternary).occursIn (s ++ tail) = (Decision.evidence .ternary).occursIn s := by
  have plain : (Decision.evidence .ternary).Plain := ⟨trivial, trivial, trivial⟩
  have outside : '?' ∉ tail := fun member => absurd (trailing '?' member) (by decide)
  rw [Bool.eq_iff_iff, occursIn_plain plain, occursIn_plain plain]
  constructor
  · rintro ⟨front, _, back, ⟨_, _, ⟨b, before, rfl⟩, ⟨_, _, ⟨q, asks, rfl⟩, ⟨d, behind, rfl⟩, rfl⟩, rfl⟩, split⟩
    obtain rfl : q = '?' := beq_iff_eq.mp asks
    have asked : s ++ tail = (front ++ [b]) ++ '?' :: d :: back := by simpa using split
    rcases List.append_eq_append_iff.mp asked with ⟨more, _, rest⟩ | ⟨more, rfl, rest⟩
    · exact absurd (rest ▸ List.mem_append_right _ List.mem_cons_self) outside
    · rcases more with _ | ⟨x, _ | ⟨y, more⟩⟩
      · have held : '?' :: d :: back = tail := rest
        exact absurd (held ▸ List.mem_cons_self) outside
      · obtain rfl : '?' = x := (List.cons.inj rest).1
        exact absurd (by simp) unasked
      · obtain rfl : '?' = x := (List.cons.inj rest).1
        obtain rfl : d = y := (List.cons.inj (List.cons.inj rest).2).1
        exact ⟨front, _, more, ⟨_, _, ⟨b, before, rfl⟩, ⟨_, _, ⟨'?', asks, rfl⟩, ⟨d, behind, rfl⟩, rfl⟩, rfl⟩, by simp⟩
  · rintro ⟨front, text, back, spelled, rfl⟩
    exact ⟨front, text, back ++ tail, spelled, by simp⟩

theorem occursIn_wholeWord {choices : List String} (given : choices ≠ [])
    (solid : ∀ choice ∈ choices, IsSolid choice.toList) (s : List Char) :
    (Decision.wholeWord choices).occursIn (s ++ tail) = (Decision.wholeWord choices).occursIn s := by
  have edge : wordEdge.Ignores IsTrailing := fun _ trails => trails.not_word
  refine occursIn_append trailing ?_ ?_ s
  · simpa [Decision.wholeWord, edge] using fun choice among => (solid choice among).2
  · rintro ⟨_, _, rfl, ⟨_, _, spelled, rfl, rfl⟩, empty⟩
    obtain ⟨choice, among, rfl⟩ := (spells_words given).mp spelled
    exact (solid choice among).1 (by simpa using empty.symm)

theorem occursIn_logical (s : List Char) :
    Decision.logicalOperator.occursIn (s ++ tail) = Decision.logicalOperator.occursIn s := by
  have signs : ∀ sign ∈ ["&&", "||"], (literal sign).occursIn (s ++ tail) = (literal sign).occursIn s := by
    intro sign among
    have solid : ∀ sign ∈ ["&&", "||"], IsSolid sign.toList := by decide
    refine occursIn_append trailing (ignores_literal.mpr (solid sign among).2) ?_ s
    exact fun spelled => (solid sign among).1 (spells_literal.mp spelled).symm
  simp only [Decision.logicalOperator, anyOf, occursIn_either]
  rw [signs "&&" (by decide), signs "||" (by decide), occursIn_wholeWord trailing (by decide) (by decide),
    occursIn_wholeWord trailing (by decide) (by decide)]

include trimmed

theorem kindOf_append (unasked : s.getLast? ≠ some '?') (unmatched : s ≠ "match".toList)
    (unlooped : s ≠ "loop".toList) : Decision.kindOf? (s ++ tail) = Decision.kindOf? s := by
  have same : ∀ kind, (Decision.evidence kind).occursIn (s ++ tail) = (Decision.evidence kind).occursIn s := by
    intro kind
    cases kind with
    | conditional => exact occursIn_wholeWord trailing (by decide) (by decide) s
    | switch =>
        rw [Decision.evidence, occursIn_either, occursIn_either, occursIn_wholeWord trailing (by decide) (by decide) s]
        exact congrArg _ (occursIn_keyword trailing trimmed plain_run1 (fun _ spelled => (spells_run1.mp spelled).2)
          (by decide) unmatched)
    | loop =>
        rw [Decision.evidence, occursIn_either, occursIn_either, occursIn_wholeWord trailing (by decide) (by decide) s]
        exact congrArg _ (occursIn_keyword trailing trimmed plain_run (fun _ spelled => spelled) (by decide) unlooped)
    | ternary => exact occursIn_ternary trailing unasked
    | logical => exact occursIn_logical trailing s
  rw [Decision.kindOf?, Decision.kindOf?]
  exact congrArg (List.find? · DecisionKind.all) (funext same)

end decisions

end FlowAtlas.Extraction
