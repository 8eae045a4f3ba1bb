import FlowAtlas.Proofs.Extraction.Operators

/-! The weight of a line of code beside the operators of the line as it is read by longest match. -/

namespace FlowAtlas

namespace Decision

open Pattern Text

def lexeme : Pattern := anyOf [word, Pattern.words signs, one fun _ => true]

section lexeme

theorem matchAt_lexeme (behind : List Char) (c : Char) (rest : List Char) : lexeme.matchAt? behind (c :: rest) =
    (if isWord c then some ⟨behind, (c :: rest).takeWhile isWord, (c :: rest).dropWhile isWord, []⟩ else none).or
      (((Pattern.words signs).matchAt? behind (c :: rest)).or (some ⟨behind, [c], rest, []⟩)) := by
  have last : (one fun _ => true).matchAt? behind (c :: rest) = some ⟨behind, [c], rest, []⟩ := by
    simp [matchAt?, places, Place.since, Place.advance]
  have split : lexeme = either word (either (Pattern.words signs) (one fun _ => true)) := rfl
  rw [split, matchAt_either, matchAt_either, word, matchAt_run1, last]

theorem matchAt_lexeme_sign {c : Char} (mark : isWord c = false) (behind rest : List Char) :
    (∃ sign ∈ signs, ∃ tail, c :: rest = sign.toList ++ tail ∧ Longest sign (c :: rest) ∧
      lexeme.matchAt? behind (c :: rest) = some ⟨behind, sign.toList, tail, []⟩) ∨
    (∀ sign ∈ signs, ¬sign.toList <+: c :: rest) ∧
      lexeme.matchAt? behind (c :: rest) = some ⟨behind, [c], rest, []⟩ := by
  rw [matchAt_lexeme, mark, if_neg Bool.false_ne_true, Option.none_or, matchAt_words]
  cases found : signs.find? fun sign => sign.toList.isPrefixOf (c :: rest) with
  | none =>
      right
      refine ⟨?_, rfl⟩
      intro sign listed begun
      exact List.find?_eq_none.mp found sign listed (List.isPrefixOf_iff_prefix.mpr begun)
  | some sign =>
      left
      have begun : sign.toList.isPrefixOf (c :: rest) = true :=
        List.find?_some (p := fun sign : String => sign.toList.isPrefixOf (c :: rest)) found
      obtain ⟨tail, split⟩ := List.isPrefixOf_iff_prefix.mp begun
      refine ⟨sign, List.mem_of_find?_eq_some found, tail, split.symm, longest_of_find found, ?_⟩
      rw [Option.map_some, Option.some_or, ← split, List.drop_left]

end lexeme

def operators : List String := joined ++ ["<", ">"] ++ wordOperators

def passed : List String := ["<<", ">>", ">>>", "->", "=>"]

def assignments : List String := ["<<=", ">>=", ">>>="]

def label (found : Match) : String := String.ofList found.text

def isOperator (found : Match) : Bool := operators.contains (label found)

/-- What is read by longest match is weighed as it is: a shift does not assign, no equals sign follows an arrow, and an
angle sign by itself has no character of a comparison or an arrow beside it. -/
structure Clear (found : Match) : Prop where
  assignment : label found ∉ assignments
  followed : label found ∈ passed → found.rest.head? ≠ some '='
  lone : label found ∈ ["<", ">"] → found.behind.head?.any "<=>-".toList.contains = false ∧
    found.rest.head?.any "<=>".toList.contains = false

section steps

variable {found : Match}

/-- From what is read on, the operators that are matched are that itself, if it is one, and those behind it. -/
def Agrees (found : Match) : Prop := operator.findAllFrom 0 found.behind (found.text ++ found.rest) =
  [found].filter isOperator ++ operator.findAllFrom 0 (found.text.reverse ++ found.behind) found.rest

theorem agrees_of_matched (given : found.text ≠ []) (counted : isOperator found = true)
    (matched : operator.matchAt? found.behind (found.text ++ found.rest) = some found) : Agrees found := by
  obtain ⟨c, more, beginning⟩ := List.exists_cons_of_ne_nil given
  rw [beginning, List.cons_append] at matched
  rw [Agrees, beginning, List.cons_append, findAllFrom_match given matched, List.filter_cons_of_pos counted, beginning]
  rfl

theorem agrees_of_passed (uncounted : isOperator found = false)
    (unmatched : ∀ front c back, found.text = front ++ c :: back →
      operator.matchAt? (front.reverse ++ found.behind) (c :: (back ++ found.rest)) = none) : Agrees found := by
  rw [Agrees, findAllFrom_passed found.rest unmatched, List.filter_cons_of_neg (by simp [uncounted])]
  rfl

theorem isOperator_unlisted (unlisted : label found ∉ signs) :
    isOperator found = true ↔ label found ∈ wordOperators := by
  have listed : ∀ text ∈ operators, text ∈ signs ∨ text ∈ wordOperators := by decide
  rw [isOperator, List.contains_iff_mem]
  constructor
  · exact fun counted => (listed _ counted).resolve_left unlisted
  · exact List.mem_append_right _

theorem clear_of_unlisted (unlisted : label found ∉ signs) : Clear found := by
  have assigns : ∀ text ∈ assignments, text ∈ signs := by decide
  have passes : ∀ text ∈ passed, text ∈ signs := by decide
  have angles : ∀ text ∈ ["<", ">"], text ∈ signs := by decide
  exact ⟨fun listed => unlisted (assigns _ listed), fun listed => absurd (passes _ listed) unlisted,
    fun listed => absurd (angles _ listed) unlisted⟩

theorem word_agrees {c : Char} {behind rest : List Char} (word : isWord c = true)
    (begins : behind.head?.any isWord = false) :
    Clear ⟨behind, (c :: rest).takeWhile isWord, (c :: rest).dropWhile isWord, []⟩ ∧
      Agrees ⟨behind, (c :: rest).takeWhile isWord, (c :: rest).dropWhile isWord, []⟩ := by
  have whole : (c :: rest).takeWhile isWord ++ (c :: rest).dropWhile isWord = c :: rest :=
    List.takeWhile_append_dropWhile
  have read := matchAt_operator_begun rest word begins
  have all : ∀ d ∈ (c :: rest).takeWhile isWord, isWord d = true := fun _ => List.mem_takeWhile_imp
  have held : c ∈ (c :: rest).takeWhile isWord := by
    rw [List.takeWhile_cons_of_pos word]
    exact List.mem_cons_self
  generalize (c :: rest).takeWhile isWord = run, (c :: rest).dropWhile isWord = more at *
  have unlisted : label ⟨behind, run, more, []⟩ ∉ signs := by
    intro listed
    have mark := (sign_chars _ listed).2 c (by rwa [label, String.toList_ofList])
    rw [word] at mark
    cases mark
  refine ⟨clear_of_unlisted unlisted, ?_⟩
  by_cases counted : String.ofList run ∈ wordOperators
  · apply agrees_of_matched (List.ne_nil_of_mem held)
    · exact (isOperator_unlisted unlisted).mpr counted
    · dsimp only
      rw [whole, read, if_pos counted]
  · apply agrees_of_passed
    · exact Bool.eq_false_iff.mpr fun counts => counted ((isOperator_unlisted unlisted).mp counts)
    · intro front d back split
      cases List.eq_nil_or_concat front with
      | inl empty =>
          subst empty
          dsimp only at split
          rw [split, List.nil_append, List.cons_append] at whole
          rw [whole, List.reverse_nil, List.nil_append, read, if_neg counted]
      | inr ending =>
          obtain ⟨front, last, rfl⟩ := ending
          dsimp only at split
          apply matchAt_operator_inner
          · exact all d (by simp [split])
          · simp [all last (by simp [split])]

variable {sign : String} {behind tail : List Char}

theorem other_agrees {c : Char} {rest : List Char} (mark : isWord c = false)
    (unread : ∀ sign ∈ signs, ¬sign.toList <+: c :: rest) :
    Clear ⟨behind, [c], rest, []⟩ ∧ Agrees ⟨behind, [c], rest, []⟩ := by
  have unlisted : label ⟨behind, [c], rest, []⟩ ∉ signs := by
    intro listed
    apply unread _ listed
    rw [label, String.toList_ofList]
    exact ⟨rest, rfl⟩
  have unworded : label ⟨behind, [c], rest, []⟩ ∉ wordOperators := by
    intro listed
    have word := (word_chars _ listed).2 c (by simp [label])
    rw [mark] at word
    cases word
  refine ⟨clear_of_unlisted unlisted, ?_⟩
  apply agrees_of_passed
  · exact Bool.eq_false_iff.mpr fun counts => unworded ((isOperator_unlisted unlisted).mp counts)
  · intro front d back split
    obtain ⟨rfl, rfl, rfl⟩ : front = [] ∧ c = d ∧ back = [] := by
      cases front <;> simp_all
    exact sign_unmatched mark unread behind

theorem label_sign (sign : String) : label ⟨behind, sign.toList, tail, []⟩ = sign := String.ofList_toList

theorem isOperator_sign (uncounted : sign ∉ operators) : isOperator ⟨behind, sign.toList, tail, []⟩ = false := by
  rw [isOperator, label_sign]
  exact Bool.eq_false_iff.mpr fun counted => uncounted (List.contains_iff_mem.mp counted)

theorem joined_agrees (listed : sign ∈ joined) (longest : Longest sign (sign.toList ++ tail)) :
    Clear ⟨behind, sign.toList, tail, []⟩ ∧ Agrees ⟨behind, sign.toList, tail, []⟩ := by
  have apart : ∀ sign ∈ joined, sign ∈ signs ∧ sign ∈ operators ∧ sign ∉ assignments ∧ sign ∉ passed ∧
      sign ∉ ["<", ">"] := by
    decide
  obtain ⟨known, counted, unassigned, unpassed, unangled⟩ := apart sign listed
  constructor
  · constructor <;> rw [label_sign]
    · exact unassigned
    · exact fun passes => absurd passes unpassed
    · exact fun angled => absurd angled unangled
  · apply agrees_of_matched (sign_chars sign known).1
    · rw [isOperator, label_sign]
      exact List.contains_iff_mem.mpr counted
    · exact joined_matched listed longest behind

theorem angles_front (tail angles : List Char) : ∀ (behind : List Char) {c d : Char}, c ∈ "<=>-".toList →
    (∀ e ∈ d :: angles, e ∈ "<>".toList) → ∃ front last, c :: d :: angles = front ++ [last] ∧ last ∈ "<>".toList ∧
      (front.reverse ++ behind).head?.any "<=>-".toList.contains = true ∧
      operator.findAllFrom 0 behind (c :: d :: (angles ++ tail)) =
        operator.findAllFrom 0 (front.reverse ++ behind) (last :: tail) := by
  -- Of angle signs behind a character that they belong with all but the last are passed.
  induction angles with
  | nil =>
      intro behind c d near angled
      have last := angled d (List.mem_singleton_self d)
      exact ⟨[c], d, rfl, last, List.contains_iff_mem.mpr near, findAllFrom_none (front_unmatched near last behind)⟩
  | cons e angles ih =>
      intro behind c d near angled
      obtain ⟨first, others⟩ := List.forall_mem_cons.mp angled
      obtain ⟨front, last, split, single, belongs, begun⟩ := ih (c :: behind) (near_of_angle first) others
      have turned : (c :: front).reverse ++ behind = front.reverse ++ c :: behind := by simp
      refine ⟨c :: front, last, congrArg (c :: ·) split, single, turned ▸ belongs, ?_⟩
      rw [turned, ← begun]
      exact findAllFrom_none (front_unmatched near first behind)

theorem passed_front (listed : sign ∈ passed) (behind tail : List Char) : ∃ front last,
    sign.toList = front ++ [last] ∧ last ∈ "<>".toList ∧
      (front.reverse ++ behind).head?.any "<=>-".toList.contains = true ∧
      operator.findAllFrom 0 behind (sign.toList ++ tail) =
        operator.findAllFrom 0 (front.reverse ++ behind) (last :: tail) := by
  have chars : ∀ sign ∈ passed, 2 ≤ sign.toList.length ∧ sign.toList.all "<=>-".toList.contains = true ∧
      sign.toList.tail.all "<>".toList.contains = true := by
    decide +kernel
  obtain ⟨several, near, angled⟩ := chars sign listed
  match split : sign.toList, several with
  | c :: d :: angles, _ =>
      rw [split] at near angled
      apply angles_front
      · exact List.contains_iff_mem.mp (List.all_eq_true.mp near c List.mem_cons_self)
      · exact fun e held => List.contains_iff_mem.mp (List.all_eq_true.mp angled e held)

theorem passed_agrees (listed : sign ∈ passed) (free : tail.head? ≠ some '=') :
    Clear ⟨behind, sign.toList, tail, []⟩ ∧ Agrees ⟨behind, sign.toList, tail, []⟩ := by
  have apart : ∀ sign ∈ passed, sign ∉ operators ∧ sign ∉ assignments ∧ sign ∉ ["<", ">"] := by decide
  obtain ⟨uncounted, unassigned, unangled⟩ := apart sign listed
  constructor
  · constructor <;> rw [label_sign]
    · exact unassigned
    · exact fun _ => free
    · exact fun angled => absurd angled unangled
  · obtain ⟨front, last, ending, angled, near, begun⟩ := passed_front listed behind tail
    have unmatched : operator.matchAt? (front.reverse ++ behind) (last :: tail) = none := by
      rw [back_matched angled near, if_neg free]
    rw [Agrees, begun, findAllFrom_none unmatched, List.filter_cons_of_neg (by simp [isOperator_sign uncounted]),
      ending, List.reverse_append]
    rfl

theorem equals_matched (listed : sign ∈ passed) (behind more : List Char) :
    ∃ other ∈ operator.findAllFrom 0 behind (sign.toList ++ '=' :: more),
      other.behind.length < behind.length + sign.toList.length := by
  obtain ⟨front, last, ending, angled, near, begun⟩ := passed_front listed behind ('=' :: more)
  have matched : operator.matchAt? (front.reverse ++ behind) (last :: '=' :: more) = _ := back_matched angled near
  rw [List.head?_cons, if_pos rfl] at matched
  rw [begun, findAllFrom_match (List.cons_ne_nil _ _) matched]
  refine ⟨_, List.mem_cons_self, ?_⟩
  simp only [ending, List.length_append, List.length_reverse, List.length_singleton]
  omega

/-- What begins behind a lexeme, and the lexeme if it is an operator, are not all that is matched from it on. -/
def Departs (found : Match) : Prop :=
  ∀ later, (∀ other ∈ later, found.behind.length + found.text.length ≤ other.behind.length) →
    operator.findAllFrom 0 found.behind (found.text ++ found.rest) ≠ [found].filter isOperator ++ later

theorem departs_of_equals {shift : String} (listed : shift ∈ passed) {more : List Char}
    (uncounted : isOperator found = false) (begins : shift.toList.length ≤ found.text.length)
    (split : found.text ++ found.rest = shift.toList ++ '=' :: more) : Departs found := by
  intro later behind same
  rw [split, List.filter_cons_of_neg (by simp [uncounted]), List.filter_nil, List.nil_append] at same
  obtain ⟨other, matched, early⟩ := equals_matched listed found.behind more
  have late := behind other (same ▸ matched)
  omega

theorem passed_departs (listed : sign ∈ passed) (follows : tail.head? = some '=') :
    ¬Clear ⟨behind, sign.toList, tail, []⟩ ∧ Departs ⟨behind, sign.toList, tail, []⟩ := by
  have uncounted : ∀ sign ∈ passed, sign ∉ operators := by decide
  obtain ⟨more, rfl⟩ := List.head?_eq_some_iff.mp follows
  constructor
  · intro clear
    apply clear.followed _ follows
    rwa [label_sign]
  · exact departs_of_equals listed (isOperator_sign (uncounted sign listed)) (Nat.le_refl _) rfl

theorem assigned_departs (listed : sign ∈ assignments) :
    ¬Clear ⟨behind, sign.toList, tail, []⟩ ∧ Departs ⟨behind, sign.toList, tail, []⟩ := by
  have shifts : ∀ sign ∈ assignments, sign ∉ operators ∧ ∃ shift ∈ passed, sign.toList = shift.toList ++ ['='] := by
    decide +kernel
  obtain ⟨uncounted, shift, known, split⟩ := shifts sign listed
  constructor
  · intro clear
    apply clear.assignment
    rwa [label_sign]
  · apply departs_of_equals known (isOperator_sign uncounted)
    · rw [split, List.length_append]
      exact Nat.le_add_right _ _
    · rw [split, List.append_assoc]
      rfl

theorem angle_decides {c : Char} {rest : List Char} (angled : c ∈ "<>".toList)
    (longest : Longest (String.ofList [c]) (c :: rest)) :
    Clear ⟨behind, [c], rest, []⟩ ∧ Agrees ⟨behind, [c], rest, []⟩ ∨
      ¬Clear ⟨behind, [c], rest, []⟩ ∧ Departs ⟨behind, [c], rest, []⟩ := by
  have kinds : String.ofList [c] ∈ operators ∧ String.ofList [c] ∉ assignments ∧ String.ofList [c] ∉ passed ∧
      String.ofList [c] ∈ ["<", ">"] := by
    rcases angle_iff.mp angled with rfl | rfl <;> decide
  obtain ⟨counted, unassigned, unpassed, listed⟩ := kinds
  have counts : isOperator ⟨behind, [c], rest, []⟩ = true := List.contains_iff_mem.mpr counted
  have read := angle_matched angled longest behind
  split at read
  · rename_i lone
    left
    constructor
    · exact ⟨unassigned, fun passes => absurd passes unpassed, fun _ => lone⟩
    · exact agrees_of_matched (List.cons_ne_nil _ _) counts read
  · rename_i beside
    right
    constructor
    · exact fun clear => beside (clear.lone listed)
    · intro later _ same
      rw [List.filter_cons_of_pos counts, List.singleton_append, findAllFrom_none read] at same
      have member : ⟨behind, [c], rest, []⟩ ∈ operator.findAllFrom 0 (c :: behind) rest := by
        rw [same]
        exact List.mem_cons_self
      exact absurd (behind_of_mem_findAllFrom rest member) (by simp)

theorem lexeme_decides {c : Char} {rest : List Char} (begins : behind.head?.any isWord = true → isWord c = false)
    (read : lexeme.matchAt? behind (c :: rest) = some found) :
    Clear found ∧ Agrees found ∨ ¬Clear found ∧ Departs found := by
  cases kind : isWord c with
  | true =>
      have outside : behind.head?.any isWord = false := by
        apply Bool.eq_false_iff.mpr
        intro inside
        rw [begins inside] at kind
        cases kind
      rw [matchAt_lexeme, kind, if_pos rfl, Option.some_or] at read
      exact Or.inl (Option.some.inj read ▸ word_agrees kind outside)
  | false =>
      rcases matchAt_lexeme_sign kind behind rest with
        ⟨sign, listed, tail, split, longest, first⟩ | ⟨unread, first⟩
      · have groups : ∀ sign ∈ signs, sign ∈ joined ∨ sign ∈ passed ∨ sign ∈ assignments ∨
            sign = "<" ∨ sign = ">" := by
          decide
        have single : sign = "<" ∨ sign = ">" → ∃ angle ∈ "<>".toList, sign = String.ofList [angle] := by
          rintro (rfl | rfl)
          · exact ⟨'<', angle_iff.mpr (Or.inl rfl), rfl⟩
          · exact ⟨'>', angle_iff.mpr (Or.inr rfl), rfl⟩
        rw [read] at first
        obtain rfl := Option.some.inj first
        rcases groups sign listed with joins | passes | assigns | alone
        · exact Or.inl (joined_agrees joins (split ▸ longest))
        · by_cases follows : tail.head? = some '='
          · exact Or.inr (passed_departs passes follows)
          · exact Or.inl (passed_agrees passes follows)
        · exact Or.inr (assigned_departs assigns)
        · obtain ⟨angle, angled, rfl⟩ := single alone
          rw [String.toList_ofList] at split ⊢
          rw [split] at longest
          exact angle_decides angled longest
      · rw [read] at first
        obtain rfl := Option.some.inj first
        exact Or.inl (other_agrees kind unread)

theorem lexeme_reads (behind : List Char) (c : Char) (rest : List Char) : ∃ found,
    lexeme.matchAt? behind (c :: rest) = some found ∧ found.text ≠ [] ∧
      ((found.text.reverse ++ behind).head?.any isWord = true → found.rest.head?.any isWord = false) := by
  cases kind : isWord c with
  | true =>
      refine ⟨_, by rw [matchAt_lexeme, kind, if_pos rfl, Option.some_or], ?_, ?_⟩
      · simp [kind]
      · intro _
        apply (takeWhile_append_iff _ fun _ => List.mem_takeWhile_imp).mp
        rw [List.takeWhile_append_dropWhile]
  | false =>
      have outside : ∀ text : List Char, text ≠ [] → (∀ d ∈ text, isWord d = false) →
          (text.reverse ++ behind).head?.any isWord = false := by
        intro text given marks
        obtain ⟨d, others, ending⟩ := List.exists_cons_of_ne_nil (List.reverse_ne_nil_iff.mpr given)
        rw [ending]
        exact marks d (List.mem_reverse.mp (ending ▸ List.mem_cons_self))
      rcases matchAt_lexeme_sign kind behind rest with ⟨sign, listed, tail, -, -, read⟩ | ⟨-, read⟩
      · obtain ⟨given, marks⟩ := sign_chars sign listed
        refine ⟨_, read, given, ?_⟩
        rw [outside _ given marks]
        exact fun word => absurd word Bool.false_ne_true
      · refine ⟨_, read, List.cons_ne_nil _ _, ?_⟩
        rw [outside [c] (List.cons_ne_nil _ _) (by simpa using kind)]
        exact fun word => absurd word Bool.false_ne_true

theorem longest_of_read {c : Char} {rest : List Char} (read : lexeme.matchAt? behind (c :: rest) = some found) :
    Longest (label found) (found.text ++ found.rest) := by
  rw [← matchAt_text read]
  intro sign listed begins
  obtain ⟨given, marks⟩ := sign_chars sign listed
  obtain ⟨d, more, beginning⟩ := List.exists_cons_of_ne_nil given
  have mark : isWord c = false := by
    have same := begins
    rw [beginning, List.cons_prefix_cons] at same
    exact same.1 ▸ marks d (beginning ▸ List.mem_cons_self)
  rcases matchAt_lexeme_sign mark behind rest with ⟨first, -, tail, -, longest, known⟩ | ⟨unread, -⟩
  · rw [read] at known
    obtain rfl := Option.some.inj known
    rw [label_sign]
    exact longest sign listed begins
  · exact absurd begins (unread sign listed)

theorem lexeme_induction {holds : List Char → List Char → Prop} (empty : ∀ behind, holds behind [])
    (step : ∀ behind c rest found, lexeme.matchAt? behind (c :: rest) = some found → found.text ≠ [] →
      ((found.text.reverse ++ behind).head?.any isWord = true → found.rest.head?.any isWord = false) →
      holds (found.text.reverse ++ behind) found.rest → holds behind (c :: rest)) (behind s : List Char) :
    holds behind s := by
  have bounded : ∀ size, ∀ behind s : List Char, s.length ≤ size → holds behind s := by
    intro size
    induction size with
    | zero =>
        intro behind s short
        rw [List.length_eq_zero_iff.mp (Nat.le_zero.mp short)]
        exact empty behind
    | succ size ih =>
        intro behind s short
        cases s with
        | nil => exact empty behind
        | cons c rest =>
            obtain ⟨found, read, given, next⟩ := lexeme_reads behind c rest
            have fewer := Nat.lt_of_lt_of_le (matchAt_shorter read given) short
            exact step behind c rest found read given next (ih _ _ (Nat.le_of_lt_succ fewer))
  exact bounded s.length behind s (Nat.le_refl _)

theorem flatMap_lexemes (behind s : List Char) : (lexeme.findAllFrom 0 behind s).flatMap (·.text) = s := by
  induction behind, s using lexeme_induction with
  | empty => rfl
  | step behind c rest found read given _ further =>
      rw [findAllFrom_match given read, List.flatMap_cons, further]
      exact (matchAt_text read).symm

theorem longest_lexemes (behind s : List Char) :
    ∀ found ∈ lexeme.findAllFrom 0 behind s, Longest (label found) (found.text ++ found.rest) := by
  induction behind, s using lexeme_induction with
  | empty => exact fun _ member => nomatch member
  | step behind c rest found read given _ further =>
      rw [findAllFrom_match given read, List.forall_mem_cons]
      exact ⟨longest_of_read read, further⟩

theorem findAllFrom_iff (behind s : List Char) : (behind.head?.any isWord = true → s.head?.any isWord = false) →
    (operator.findAllFrom 0 behind s = (lexeme.findAllFrom 0 behind s).filter isOperator ↔
      ∀ found ∈ lexeme.findAllFrom 0 behind s, Clear found) := by
  -- The places where lexemes begin are never inside a word, so each lexeme decides for itself.
  induction behind, s using lexeme_induction with
  | empty => simp [findAllFrom]
  | step behind c rest found read given next further =>
      intro begins
      rw [findAllFrom_match given read, List.forall_mem_cons, ← further next, matchAt_text read, ← matchAt_behind read,
        ← List.singleton_append, List.filter_append]
      rcases lexeme_decides begins read with ⟨clear, agrees⟩ | ⟨unclear, departs⟩
      · rw [agrees, and_iff_right clear]
        exact List.append_right_inj _
      · have later : ∀ other ∈ (lexeme.findAllFrom 0 (found.text.reverse ++ found.behind) found.rest).filter isOperator,
            found.behind.length + found.text.length ≤ other.behind.length := by
          intro other member
          have after := behind_of_mem_findAllFrom _ (List.mem_of_mem_filter member)
          rw [List.length_append, List.length_reverse] at after
          omega
        exact ⟨fun same => absurd same (departs _ later), fun both => absurd both.1 unclear⟩

end steps

/-- A line is made up of what is read, at each place the longest that there is. Exactly its operators are matched, each
where it stands, if and only if all that is read is clear. The weight is then one more than their number. -/
theorem weightOf_operators (code : List Char) :
    (lexeme.findAll code).flatMap (·.text) = code ∧
      (∀ found ∈ lexeme.findAll code, Longest (label found) (found.text ++ found.rest)) ∧
      (operator.findAll code = (lexeme.findAll code).filter isOperator ↔ ∀ found ∈ lexeme.findAll code, Clear found) ∧
      ((∀ found ∈ lexeme.findAll code, Clear found) → weightOf code = 1 + (lexeme.findAll code).countP isOperator) := by
  have found : operator.findAll code = (lexeme.findAll code).filter isOperator ↔
      ∀ found ∈ lexeme.findAll code, Clear found :=
    findAllFrom_iff [] code fun begins => absurd begins Bool.false_ne_true
  refine ⟨flatMap_lexemes [] code, longest_lexemes [] code, found, ?_⟩
  intro clear
  rw [weightOf, found.mpr clear, List.countP_eq_length_filter]

instance (found : Match) : Decidable (Clear found) :=
  decidable_of_iff (label found ∉ assignments ∧ (label found ∈ passed → found.rest.head? ≠ some '=') ∧
      (label found ∈ ["<", ">"] → found.behind.head?.any "<=>-".toList.contains = false ∧
        found.rest.head?.any "<=>".toList.contains = false))
    ⟨fun ⟨assignment, followed, lone⟩ => ⟨assignment, followed, lone⟩,
      fun clear => ⟨clear.assignment, clear.followed, clear.lone⟩⟩

/-- A shift and two arrows do not weigh on a line. A shift that assigns does, by its last two characters. -/
theorem weightOf_operators_shift : weightOf "if (a << 2 >= b && c->d < e or not f) => g".toList = 6 ∧
    operator.findAll "x <<= 1;".toList ≠ (lexeme.findAll "x <<= 1;".toList).filter isOperator ∧
      weightOf "x <<= 1;".toList = 2 := by
  refine ⟨?_, ?_, by decide +kernel⟩
  · rw [(weightOf_operators _).2.2.2 (by decide +kernel)]
    decide +kernel
  · rw [Ne, (weightOf_operators _).2.2.1]
    decide +kernel

end Decision

end FlowAtlas
