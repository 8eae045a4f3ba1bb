import FlowAtlas.Proofs.Extraction.Quoting
import FlowAtlas.Proofs.Extraction.Shorthand

namespace FlowAtlas.Extraction

open Pattern

def Quotes (s name : List Char) : Prop :=
  ∃ front back, ∃ first last : LongQuote, name ≠ [] ∧ IsWordText name ∧
    s = front ++ first.mark :: (name ++ last.mark :: back)

def NamesNothing (s : List Char) : Prop := ∀ name, ¬Quotes s name

/-- The names between quotes from a place of a line on. -/
def quotedFrom (behind s : List Char) : List String :=
  (Indent.quotedName.findAllFrom 0 behind s).map fun found => String.ofList found.subject

theorem quotedNames_eq (raw : List Char) : Indent.quotedNames raw = quotedFrom [] raw := rfl

section reading

variable {behind s rest name : List Char} {c : Char} {first last : LongQuote}

theorem isQuoteMark_iff : [doubleQuote, singleQuote].contains c = true ↔ ∃ quote : LongQuote, c = quote.mark := by
  rw [List.contains_iff_mem]
  constructor
  · intro member
    rcases List.mem_cons.mp member with rfl | member
    · exact ⟨.double, rfl⟩
    · exact ⟨.single, List.mem_singleton.mp member⟩
  · rintro ⟨quote, rfl⟩
    cases quote <;> decide

theorem mark_not_word (quote : LongQuote) : Text.isWord quote.mark = false := by cases quote <;> decide

theorem quotedName_match {found : Match} (matched : Indent.quotedName.matchAt? behind s = some found) :
    ∃ first last : LongQuote, found.subject ≠ [] ∧ IsWordText found.subject ∧
      s = first.mark :: (found.subject ++ last.mark :: found.rest) ∧ found.text.length = found.subject.length + 2 := by
  let quotes := [doubleQuote, singleQuote]
  let around := [one quotes.contains]
  have ungrouped : (inOrder around).Ungrouped := trivial
  have read : (inOrder (around ++ group .subject word :: around)).matchAt? behind s = some found := matched
  obtain ⟨lead, tail, led, named, followed, after, whole⟩ := matchAt_spells ungrouped read
  obtain ⟨c, opens, rfl⟩ := led
  obtain ⟨d, closes, rfl⟩ := followed
  obtain ⟨first, rfl⟩ := isQuoteMark_iff.mp opens
  obtain ⟨last, rfl⟩ := isQuoteMark_iff.mp closes
  obtain ⟨given, letters⟩ := spells_run1.mp named
  rw [after] at whole
  have split : s = first.mark :: (found.subject ++ last.mark :: found.rest) := by simpa using whole
  refine ⟨first, last, given, letters, split, ?_⟩
  have sizes := congrArg List.length ((matchAt_text matched).symm.trans split)
  simp only [List.length_append, List.length_cons] at sizes
  omega

theorem matchAt_name (behind : List Char) (first last : LongQuote) (rest : List Char) (given : name ≠ [])
    (letters : IsWordText name) :
    ∃ found, Indent.quotedName.matchAt? behind (first.mark :: (name ++ last.mark :: rest)) = some found ∧
      found.subject = name ∧ found.text.length = name.length + 2 := by
  let start : Place := { behind, ahead := first.mark :: (name ++ last.mark :: rest) }
  have plain : Indent.quotedName.Plain := by simp [Indent.quotedName, subject, word]
  have spelled : Indent.quotedName.Spells (first.mark :: (name ++ [last.mark])) :=
    ⟨[first.mark], _, ⟨_, isQuoteMark_iff.mpr ⟨first, rfl⟩, rfl⟩,
      ⟨name, [last.mark], spells_run1.mpr ⟨given, letters⟩, ⟨_, isQuoteMark_iff.mpr ⟨last, rfl⟩, rfl⟩, rfl⟩, rfl⟩
  have ahead : start.ahead = (first.mark :: (name ++ [last.mark])) ++ rest := by simp [start]
  obtain ⟨stop, reached, _⟩ := spells_reach plain spelled ahead
  obtain ⟨found, matched⟩ := Option.isSome_iff_exists.mp (matchAt_isSome.mpr ⟨stop, reached⟩)
  obtain ⟨opener, closer, _, word, same, size⟩ := quotedName_match matched
  obtain ⟨names, _, _⟩ := Text.run_inj Text.isWord letters word (mark_not_word last) (mark_not_word closer)
    (List.cons.inj same).2
  exact ⟨found, matched, names.symm, by rw [names, size]⟩

theorem quotedFrom_name (first last : LongQuote) (rest : List Char) (given : name ≠ []) (letters : IsWordText name)
    (behind : List Char) :
    ∃ behind', quotedFrom behind (first.mark :: (name ++ last.mark :: rest)) =
      String.ofList name :: quotedFrom behind' rest := by
  obtain ⟨found, matched, subject, size⟩ := matchAt_name behind first last rest given letters
  have skipped : (name ++ last.mark :: rest).drop (found.text.length - 1) = rest := by
    have whole : name ++ last.mark :: rest = (name ++ [last.mark]) ++ rest := by simp
    rw [whole, size]
    exact List.drop_left' (by simp)
  refine ⟨((name ++ last.mark :: rest).take (found.text.length - 1)).reverse ++ first.mark :: behind, ?_⟩
  rw [quotedFrom, findAllFrom, matched, List.map_cons, findAllFrom_skip, skipped, subject]
  rfl

theorem quotedFrom_skip (none : Indent.quotedName.matchAt? behind (c :: rest) = none) :
    quotedFrom behind (c :: rest) = quotedFrom (c :: behind) rest := by
  rw [quotedFrom, findAllFrom, none]
  rfl

theorem quotedFrom_free {gap : List Char} (free : ∀ c ∈ gap, LongQuote.of? c = none) : ∀ behind : List Char,
    quotedFrom behind (gap ++ s) = quotedFrom (gap.reverse ++ behind) s := by
  induction gap with
  | nil => exact fun _ => rfl
  | cons c gap ih =>
      intro behind
      obtain ⟨plain, others⟩ := List.forall_mem_cons.mp free
      have unread : Indent.quotedName.matchAt? behind (c :: (gap ++ s)) = none := by
        cases matched : Indent.quotedName.matchAt? behind (c :: (gap ++ s)) with
        | none => rfl
        | some found =>
            obtain ⟨first, _, _, _, same, _⟩ := quotedName_match matched
            rw [(List.cons.inj same).1, Quoting.of_mark] at plain
            cases plain
      rw [List.cons_append, quotedFrom_skip unread, ih others, List.reverse_cons, List.append_assoc]
      rfl

theorem NamesNothing.tail (nothing : NamesNothing (c :: rest)) : NamesNothing rest := by
  rintro name ⟨front, back, first, last, given, letters, rfl⟩
  exact nothing name ⟨c :: front, back, first, last, given, letters, rfl⟩

theorem quoted_before {head : List Char} {mark : Char} (plain : LongQuote.of? mark = none)
    (outside : Text.isWord mark = false) (letters : IsWordText name)
    (same : head ++ mark :: s = name ++ last.mark :: rest) : ∃ more, head = name ++ last.mark :: more := by
  have apart : last.mark ≠ mark := by
    rintro rfl
    rw [Quoting.of_mark] at plain
    cases plain
  rcases List.append_eq_append_iff.mp same with ⟨between, rfl, tails⟩ | ⟨between, rfl, tails⟩
  · cases between with
    | nil => exact absurd (List.cons.inj tails).1.symm apart
    | cons d more =>
        have letter := letters d (by simp)
        rw [← (List.cons.inj tails).1, outside] at letter
        cases letter
  · cases between with
    | nil => exact absurd (List.cons.inj tails).1 apart
    | cons d more => exact ⟨more, by rw [(List.cons.inj tails).1]⟩

theorem quotedFrom_head {head : List Char} (nothing : NamesNothing head) {mark : Char}
    (plain : LongQuote.of? mark = none) (outside : Text.isWord mark = false) : ∀ behind : List Char,
    quotedFrom behind (head ++ mark :: s) = quotedFrom (mark :: (head.reverse ++ behind)) s := by
  induction head with
  | nil => exact quotedFrom_free (List.forall_mem_singleton.mpr plain)
  | cons c head ih =>
      intro behind
      have unread : Indent.quotedName.matchAt? behind (c :: (head ++ mark :: s)) = none := by
        cases matched : Indent.quotedName.matchAt? behind (c :: (head ++ mark :: s)) with
        | none => rfl
        | some found =>
            obtain ⟨first, last, given, letters, same, _⟩ := quotedName_match matched
            obtain ⟨rfl, tails⟩ := List.cons.inj same
            obtain ⟨more, rfl⟩ := quoted_before plain outside letters tails
            exact absurd ⟨[], more, first, last, given, letters, rfl⟩ (nothing found.subject)
      rw [List.cons_append, quotedFrom_skip unread, ih nothing.tail, List.reverse_cons, List.append_assoc]
      rfl

theorem quotedFrom_nothing (nothing : NamesNothing s) : ∀ behind : List Char, quotedFrom behind s = [] := by
  induction s with
  | nil => exact fun _ => rfl
  | cons c rest ih =>
      intro behind
      have unread : Indent.quotedName.matchAt? behind (c :: rest) = none := by
        cases matched : Indent.quotedName.matchAt? behind (c :: rest) with
        | none => rfl
        | some found =>
            obtain ⟨first, last, given, letters, same, _⟩ := quotedName_match matched
            exact absurd ⟨[], found.rest, first, last, given, letters, same⟩ (nothing found.subject)
      rw [quotedFrom_skip unread]
      exact ih nothing.tail (c :: behind)

theorem namesNothing_of_quotedFrom : ∀ {behind : List Char}, quotedFrom behind s = [] → NamesNothing s := by
  induction s with
  | nil =>
      rintro _ _ name ⟨front, back, _, _, _, _, same⟩
      simp at same
  | cons c rest ih =>
      rintro behind empty name ⟨front, back, first, last, given, letters, same⟩
      cases matched : Indent.quotedName.matchAt? behind (c :: rest) with
      | some found =>
          rw [quotedFrom, findAllFrom, matched] at empty
          cases empty
      | none =>
          rw [quotedFrom_skip matched] at empty
          cases front with
          | nil =>
              obtain ⟨found, found_eq, _⟩ := matchAt_name behind first last back given letters
              rw [same] at matched
              exact absurd (found_eq.symm.trans matched) (by simp)
          | cons d front =>
              exact ih empty name ⟨front, back, first, last, given, letters, (List.cons.inj same).2⟩

theorem namesNothing_iff : NamesNothing s ↔ Indent.quotedNames s = [] :=
  ⟨fun nothing => quotedFrom_nothing nothing [], namesNothing_of_quotedFrom⟩

instance : DecidablePred NamesNothing := fun _ => decidable_of_iff _ namesNothing_iff.symm

end reading

section rows

structure Entry where
  gap : List Char
  quote : LongQuote
  name : List Char
  free : ∀ c ∈ gap, LongQuote.of? c = none
  given : name ≠ []
  letters : IsWordText name

def Entry.text (entry : Entry) : List Char :=
  entry.gap ++ entry.quote.mark :: (entry.name ++ [entry.quote.mark])

structure Row where
  entries : List Entry
  other : List Char
  nothing : NamesNothing other

namespace Row

def text (row : Row) : List Char := row.entries.flatMap Entry.text ++ row.other

def names (row : Row) : List String := row.entries.map fun entry => String.ofList entry.name

theorem quotedFrom_text (row : Row) (behind : List Char) : quotedFrom behind row.text = row.names := by
  obtain ⟨entries, other, nothing⟩ := row
  induction entries generalizing behind with
  | nil => exact quotedFrom_nothing nothing behind
  | cons entry entries ih =>
      obtain ⟨later, read⟩ := quotedFrom_name entry.quote entry.quote (Row.mk entries other nothing).text entry.given
        entry.letters (entry.gap.reverse ++ behind)
      have text : (Row.mk (entry :: entries) other nothing).text =
          entry.gap ++ entry.quote.mark :: (entry.name ++ entry.quote.mark :: (Row.mk entries other nothing).text) := by
        simp [Row.text, Entry.text]
      rw [text, quotedFrom_free entry.free, read, ih]
      rfl

end Row

end rows

end FlowAtlas.Extraction
