import FlowAtlas.Proofs.Naming.Titles
import FlowAtlas.Proofs.Pattern.Matches
import Mathlib.Data.List.Chain

namespace FlowAtlas

namespace Text

theorem intercalate_filter {keep : Char → Bool} (unkept : keep ' ' = false) (pieces : List (List Char)) :
    ([' '].intercalate pieces).filter keep = pieces.flatten.filter keep := by
  induction pieces with
  | nil => rfl
  | cons piece rest ih =>
      cases rest with
      | nil => simp
      | cons next more =>
          rw [List.intercalate_cons_cons, List.filter_append, List.filter_append, ih, List.flatten_cons,
            List.filter_append, List.filter_singleton, unkept]
          simp

end Text

namespace Naming

open Text

section kept

theorem bareName_filter {keep : Char → Bool} (unkept : keep '_' = false) (name : List Char) :
    (bareName name).filter keep = name.filter keep := by
  have reads : outerUnderscores.Reads fun c => keep c = false := by
    simp [outerUnderscores, Pattern.Reads, Pattern.Each, unkept]
  have given : ¬outerUnderscores.Spells [] := by
    simp [outerUnderscores, Pattern.Spells]
  rw [bareName]
  split
  · rfl
  · exact Pattern.replaceFrom_filter reads given name 0 [] (by simp)

theorem spaceHumps_filter {keep : Char → Bool} (unkept : keep ' ' = false) (s : List Char) :
    (spaceHumps s).filter keep = s.filter keep := by
  induction s using spaceHumps.induct with
  | case1 c d rest hump ih =>
      rw [spaceHumps, if_pos hump, List.filter_cons, List.filter_cons_of_neg (by simp [unkept]), ih,
        ← List.filter_cons]
  | case2 c d rest level ih => rw [spaceHumps, if_neg level, List.filter_cons, ih, ← List.filter_cons]
  | case3 s short =>
      rw [spaceHumps]
      exact short

def spaced (name : String) : List Char :=
  spaceHumps ((bareName name.toList).map fun c => if c == '_' then ' ' else c)

theorem title_eq (name : String) :
    title name = String.ofList ([' '].intercalate ((Text.words (spaced name)).map capitalize)) := rfl

theorem flatten_words_spaced (name : String) :
    (Text.words (spaced name)).flatten = name.toList.filter fun c => c != '_' && !isBlank c := by
  have kept : ∀ s : List Char, (s.map fun c => if c == '_' then ' ' else c).filter (fun c => !isBlank c) =
      s.filter fun c => c != '_' && !isBlank c := by
    intro s
    induction s with
    | nil => rfl
    | cons c rest ih =>
        have blank : isBlank ' ' = true := by decide
        rw [List.map_cons, List.filter_cons, List.filter_cons, ih]
        by_cases underscore : c = '_' <;> simp [underscore, blank]
  rw [flatten_words, spaced, spaceHumps_filter (by decide), kept, bareName_filter (by decide)]

end kept

section humps

def Level (c d : Char) : Prop := (c.isLower || c.isDigit) = true → d.isUpper = false

theorem spaceHumps_head (s : List Char) : (spaceHumps s).head? = s.head? := by
  cases s using spaceHumps.fun_cases_unfolding <;> rfl

theorem spaceHumps_level (s : List Char) : (spaceHumps s).IsChain Level := by
  have behindBlank : ∀ d, Level ' ' d := fun d => nofun
  induction s using spaceHumps.induct with
  | case1 c d rest hump ih =>
      rw [spaceHumps, if_pos hump]
      exact (ih.cons fun d _ => behindBlank d).cons_cons fun _ => rfl
  | case2 c d rest level ih =>
      rw [spaceHumps, if_neg level]
      apply ih.cons
      intro e first
      rw [spaceHumps_head] at first
      obtain rfl : d = e := Option.some.inj first
      intro small
      simpa [small] using level
  | case3 s short =>
      rw [spaceHumps]
      · rcases s with _ | ⟨c, _ | ⟨d, rest⟩⟩
        · exact List.IsChain.nil
        · exact List.IsChain.singleton c
        · exact absurd rfl (short c d rest)
      · exact short

theorem spaceHumps_of_level {s : List Char} (level : s.IsChain Level) : spaceHumps s = s := by
  induction s using spaceHumps.induct with
  | case1 c d rest hump ih =>
      obtain ⟨small, upper⟩ := Bool.and_eq_true_iff.mp hump
      have flat := (List.isChain_cons_cons.mp level).1 small
      rw [upper] at flat
      cases flat
  | case2 c d rest flat ih => rw [spaceHumps, if_neg flat, ih level.tail]
  | case3 s short =>
      rw [spaceHumps]
      exact short

end humps

section capitals

theorem upperChar_ascii {c : Char} (letter : c.isAlphanum = true) : upperChar c = [c.toUpper] :=
  if_pos (ascii_of_alphanum letter)

theorem toUpper_alphanum {c : Char} (letter : c.isAlphanum = true) : c.toUpper.isAlphanum = true ∧
    c.toUpper.isLower = false ∧ (c.toUpper.isDigit = true → c.isDigit = true) ∧ c.toUpper.toLower = c.toLower ∧
    (c.isLower = false → c.toUpper = c) := by
  apply of_ascii (fun c => c.isAlphanum = true → c.toUpper.isAlphanum = true ∧ c.toUpper.isLower = false ∧
    (c.toUpper.isDigit = true → c.isDigit = true) ∧ c.toUpper.toLower = c.toLower ∧
    (c.isLower = false → c.toUpper = c)) _ (ascii_of_alphanum letter) letter
  decide

/-- A word of a title: letters and digits without a hump, the first of them no small letter. -/
structure TitleWord (word : List Char) : Prop where
  given : word ≠ []
  letters : ∀ c ∈ word, c.isAlphanum = true
  level : word.IsChain Level
  begins : ∀ c ∈ word.head?, c.isLower = false

theorem capitalize_titleWord {word : List Char} (given : word ≠ []) (letters : ∀ c ∈ word, c.isAlphanum = true)
    (level : word.IsChain Level) : TitleWord (capitalize word) := by
  obtain ⟨c, rest, rfl⟩ := List.exists_cons_of_ne_nil given
  obtain ⟨letter, others⟩ := List.forall_mem_cons.mp letters
  obtain ⟨upper, capital, digit, -, -⟩ := toUpper_alphanum letter
  rw [capitalize, upperChar_ascii letter, List.singleton_append]
  constructor
  case given => exact List.cons_ne_nil _ _
  case letters => exact List.forall_mem_cons.mpr ⟨upper, others⟩
  case level =>
    obtain ⟨first, tail⟩ := List.isChain_cons.mp level
    apply tail.cons
    intro d next small
    rw [capital, Bool.false_or] at small
    exact first d next (by simp [digit small])
  case begins =>
    rintro _ ⟨⟩
    exact capital

theorem capitalize_of_titleWord {word : List Char} (titled : TitleWord word) : capitalize word = word := by
  obtain ⟨c, rest, rfl⟩ := List.exists_cons_of_ne_nil titled.given
  have letter := titled.letters c List.mem_cons_self
  rw [capitalize, upperChar_ascii letter, (toUpper_alphanum letter).2.2.2.2 (titled.begins c rfl)]
  rfl

theorem map_toLower_capitalize {word : List Char} (letters : ∀ c ∈ word, c.isAlphanum = true) :
    (capitalize word).map Char.toLower = word.map Char.toLower := by
  cases word with
  | nil => rfl
  | cons c rest =>
      have letter := letters c List.mem_cons_self
      rw [capitalize, upperChar_ascii letter, List.singleton_append, List.map_cons, List.map_cons,
        (toUpper_alphanum letter).2.2.2.1]

theorem TitleWord.unbroken {word : List Char} (titled : TitleWord word) : Unbroken word :=
  ⟨titled.given, fun c member => not_isBlank_of_alphanum (titled.letters c member)⟩

end capitals

section titles

/-- Neighbours in a title: behind a blank stand neither a second one nor a small letter, and no hump is left. -/
def Follows (c d : Char) : Prop := (c = ' ' → d ≠ ' ' ∧ d.isLower = false) ∧ Level c d

/-- How a title is written. -/
structure Titled (s : List Char) : Prop where
  plain : '_' ∉ s
  begins : ∀ c ∈ s.head?, c ≠ ' ' ∧ c.isLower = false
  ends : ∀ c ∈ s.getLast?, c ≠ ' '
  follows : s.IsChain Follows

theorem TitleWord.titled {word : List Char} (titled : TitleWord word) : Titled word := by
  have solid : ∀ c ∈ word, c ≠ ' ' := by
    rintro c member rfl
    exact absurd (titled.letters ' ' member) (by decide)
  constructor
  case plain => exact fun member => absurd (titled.letters '_' member) (by decide)
  case begins => exact fun c first => ⟨solid c (List.mem_of_mem_head? first), titled.begins c first⟩
  case ends => exact fun c last => solid c (List.mem_of_mem_getLast? last)
  case follows =>
    apply titled.level.imp_of_mem_imp
    intro c d member _ level
    exact ⟨fun blank => absurd blank (solid c member), level⟩

theorem Titled.join {word s : List Char} (first : TitleWord word) (rest : Titled s) (given : s ≠ []) :
    Titled (word ++ ' ' :: s) := by
  have alone := first.titled
  have behindBlank : (' ' :: s).IsChain Follows := by
    apply rest.follows.cons
    intro d next
    exact ⟨fun _ => rest.begins d next, nofun⟩
  constructor
  case plain => simp [alone.plain, rest.plain]
  case begins =>
    intro c held
    rw [List.head?_append_of_ne_nil _ first.given] at held
    exact alone.begins c held
  case ends =>
    intro c held
    rw [List.getLast?_append_of_ne_nil _ (List.cons_ne_nil _ _), List.getLast?_cons_of_ne_nil given] at held
    exact rest.ends c held
  case follows =>
    apply alone.follows.append behindBlank
    intro c last d next
    obtain rfl : ' ' = d := Option.some.inj next
    exact ⟨fun blank => absurd blank (alone.ends c last), fun _ => rfl⟩

theorem titled_intercalate {pieces : List (List Char)} (titled : ∀ piece ∈ pieces, TitleWord piece) :
    Titled ([' '].intercalate pieces) := by
  induction pieces with
  | nil => exact ⟨List.not_mem_nil, nofun, nofun, List.IsChain.nil⟩
  | cons piece rest ih =>
      obtain ⟨first, others⟩ := List.forall_mem_cons.mp titled
      cases rest with
      | nil =>
          rw [List.intercalate_singleton]
          exact first.titled
      | cons next more =>
          have given : [' '].intercalate (next :: more) ≠ [] := by
            intro empty
            have none := congrArg Text.words empty
            rw [words_intercalate fun piece listed => (others piece listed).unbroken] at none
            cases none
          rw [List.intercalate_cons_cons, List.append_assoc, List.singleton_append]
          exact (ih others).join first given

theorem title_intercalate {pieces : List (List Char)} (titled : ∀ piece ∈ pieces, TitleWord piece) :
    title (String.ofList ([' '].intercalate pieces)) = String.ofList ([' '].intercalate pieces) := by
  let s := [' '].intercalate pieces
  have whole := titled_intercalate titled
  have solid : ∀ c ∈ s, (c != '_') = true := fun c member => bne_iff_ne.mpr (ne_of_mem_of_not_mem member whole.plain)
  have bare : bareName s = s := by
    have kept : (bareName s).filter (fun c => c != '_') = s.filter fun c => c != '_' := bareName_filter (by decide) s
    rwa [List.filter_eq_self.mpr fun c member => solid c (bareName_subset s member), List.filter_eq_self.mpr solid]
      at kept
  have same : (s.map fun c => if c == '_' then ' ' else c) = s := by
    rw [List.map_congr_left (g := id), List.map_id]
    exact fun c member => if_neg (by simpa using solid c member)
  have spread : spaced (String.ofList s) = s := by
    rw [spaced, String.toList_ofList, bare, same]
    exact spaceHumps_of_level (whole.follows.imp fun c d follows => follows.2)
  have capitals : pieces.map capitalize = pieces := by
    rw [List.map_congr_left (g := id), List.map_id]
    exact fun piece listed => capitalize_of_titleWord (titled piece listed)
  rw [title_eq, spread, words_intercalate fun piece listed => (titled piece listed).unbroken, capitals]

variable {name : String} (ascii : ∀ c ∈ name.toList, c.isAlphanum = true ∨ c = '_')

include ascii

theorem words_spaced_letters {word : List Char} (member : word ∈ Text.words (spaced name)) :
    ∀ c ∈ word, c.isAlphanum = true := by
  intro c held
  have kept := List.mem_flatten.mpr ⟨word, member, held⟩
  rw [flatten_words_spaced] at kept
  obtain ⟨listed, other⟩ := List.mem_filter.mp kept
  apply (ascii c listed).resolve_right
  rintro rfl
  simp at other

theorem title_words : ∀ word ∈ (Text.words (spaced name)).map capitalize, TitleWord word := by
  intro _ listed
  obtain ⟨word, member, rfl⟩ := List.mem_map.mp listed
  have level := List.IsChain.infix (spaceHumps_level _) (infix_of_mem_words member)
  exact capitalize_titleWord (unbroken_of_mem_words member).1 (words_spaced_letters ascii member) level

theorem title_keeps : ((title name).toList.filter fun c => c != ' ').map Char.toLower =
    (name.toList.filter fun c => c != '_').map Char.toLower := by
  have solid : ((Text.words (spaced name)).map capitalize).flatten.filter (fun c => c != ' ') =
      ((Text.words (spaced name)).map capitalize).flatten := by
    apply List.filter_eq_self.mpr
    intro c member
    obtain ⟨word, listed, held⟩ := List.mem_flatten.mp member
    have letter := (title_words ascii word listed).letters c held
    apply bne_iff_ne.mpr
    rintro rfl
    exact absurd letter (by decide)
  have small : ∀ word ∈ Text.words (spaced name), (capitalize word).map Char.toLower = word.map Char.toLower :=
    fun word member => map_toLower_capitalize (words_spaced_letters ascii member)
  have visible : (name.toList.filter fun c => c != '_' && !isBlank c) = name.toList.filter fun c => c != '_' := by
    apply List.filter_congr
    intro c member
    rcases ascii c member with letter | rfl
    · rw [not_isBlank_of_alphanum letter, Bool.not_false, Bool.and_true]
    · rfl
  calc ((title name).toList.filter fun c => c != ' ').map Char.toLower
      = ((Text.words (spaced name)).map capitalize).flatten.map Char.toLower := by
        rw [title_eq, String.toList_ofList, intercalate_filter (by decide), solid]
    _ = (Text.words (spaced name)).flatten.map Char.toLower := by
        rw [List.map_flatten, List.map_flatten, List.map_map]
        exact congrArg List.flatten (List.map_congr_left small)
    _ = (name.toList.filter fun c => c != '_').map Char.toLower := by
        rw [flatten_words_spaced, visible]

end titles

/-- A title of a name of letters, digits and underscores holds all its letters and digits in order, is written as
titles are, and is the title of itself. -/
theorem title_letters {name : String} (ascii : ∀ c ∈ name.toList, c.isAlphanum = true ∨ c = '_') :
    ((title name).toList.filter fun c => c != ' ').map Char.toLower =
        (name.toList.filter fun c => c != '_').map Char.toLower ∧
      Titled (title name).toList ∧ title (title name) = title name := by
  have titled := title_words ascii
  refine ⟨title_keeps ascii, ?_, ?_⟩
  · rw [title_eq, String.toList_ofList]
    exact titled_intercalate titled
  · rw [title_eq]
    exact title_intercalate titled

theorem title_letters_acronym :
    let name := "__loadHTML5_file2Name__"
    (∀ c ∈ name.toList, c.isAlphanum = true ∨ c = '_') ∧ title name = "Load HTML5 File2 Name" ∧
      ((title name).toList.filter fun c => c != ' ').map Char.toLower =
        (name.toList.filter fun c => c != '_').map Char.toLower ∧
      Titled (title name).toList ∧ title (title name) = title name := by
  intro name
  have letters : (name.toList.all fun c => c.isAlphanum || c == '_') = true := by decide
  have ascii : ∀ c ∈ name.toList, c.isAlphanum = true ∨ c = '_' := by
    simpa only [Bool.or_eq_true, beq_iff_eq] using List.all_eq_true.mp letters
  exact ⟨ascii, by decide +kernel, title_letters ascii⟩

end Naming

end FlowAtlas
