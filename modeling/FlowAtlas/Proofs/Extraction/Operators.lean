import FlowAtlas.Extraction.Decision
import FlowAtlas.Proofs.Pattern.Matches

namespace FlowAtlas

namespace Decision

open Pattern Text

def signs : List String := [">>>=", "===", "!==", "<<=", ">>=", ">>>", "&&", "||", "==", "!=", "<=", ">=", "<<", ">>",
  "->", "=>", "<", ">"]

def joined : List String := ["&&", "||", "===", "!==", "==", "!=", "<=", ">="]

def wordOperators : List String := ["and", "or", "not"]

def angle : Pattern :=
  inOrder [unlessBehind fun c => "<=>-".toList.contains c, oneOf "<>", unlessAhead (oneOf "<=>")]

section parts

theorem matchAt_angle (behind : List Char) (c : Char) (rest : List Char) : angle.matchAt? behind (c :: rest) =
    if behind.head?.any "<=>-".toList.contains = false ∧ "<>".toList.contains c = true ∧
      rest.head?.any "<=>".toList.contains = false then some ⟨behind, [c], rest, []⟩ else none := by
  have first : (unlessBehind fun c => "<=>-".toList.contains c).places { behind, ahead := c :: rest } =
      if behind.head?.any "<=>-".toList.contains then [] else [{ behind, ahead := c :: rest }] := rfl
  have second : (oneOf "<>").places { behind, ahead := c :: rest } =
      if "<>".toList.contains c then [Place.advance { behind, ahead := c :: rest } c rest] else [] := rfl
  have third : (inOrder [unlessAhead (oneOf "<=>")]).places (Place.advance { behind, ahead := c :: rest } c rest) =
      if !rest.head?.any "<=>".toList.contains then [Place.advance { behind, ahead := c :: rest } c rest] else [] := by
    rw [inOrder, places, isEmpty_oneOf]
    rfl
  rw [matchAt?, angle, places_inOrder_cons, first]
  cases behind.head?.any "<=>-".toList.contains with
  | true => rfl
  | false =>
      rw [if_neg Bool.false_ne_true, List.flatMap_singleton, places_inOrder_cons, second]
      cases "<>".toList.contains c with
      | false => rfl
      | true =>
          rw [if_pos rfl, List.flatMap_singleton, third]
          cases rest.head?.any "<=>".toList.contains <;> rfl

theorem matchAt_wholeWord (text : String) (behind ahead : List Char) :
    (wholeWord [text]).matchAt? behind ahead =
      if Place.isWordEdge { behind, ahead } && (text.toList.isPrefixOf ahead &&
          Place.isWordEdge (Place.along { behind, ahead } text.toList (ahead.drop text.toList.length))) then
        some ⟨behind, text.toList, ahead.drop text.toList.length, []⟩ else none := by
  have single : Pattern.words [text] = literal text := rfl
  have edge : ∀ place : Place, wordEdge.places place = if place.isWordEdge then [place] else [] := fun _ => rfl
  rw [matchAt?, wholeWord, single, places_inOrder_cons, edge]
  cases Place.isWordEdge { behind, ahead } with
  | false => rfl
  | true =>
      rw [if_pos rfl, List.flatMap_singleton, places_inOrder_cons, places_literal]
      dsimp only
      cases text.toList.isPrefixOf ahead with
      | false => rfl
      | true =>
          rw [if_pos rfl, List.flatMap_singleton, inOrder, edge]
          cases Place.isWordEdge (Place.along { behind, ahead } text.toList (ahead.drop text.toList.length)) with
          | false => rfl
          | true =>
              rw [if_pos rfl, List.head?_cons, Option.map_some, Place.since_along]
              rfl

theorem matchAt_wholeWord_run {text : String} (given : text.toList ≠ [])
    (letters : ∀ c ∈ text.toList, isWord c = true) {behind : List Char} (begins : behind.head?.any isWord = false)
    (ahead : List Char) : (wholeWord [text]).matchAt? behind ahead =
      if ahead.takeWhile isWord = text.toList then some ⟨behind, text.toList, ahead.dropWhile isWord, []⟩
      else none := by
  by_cases read : text.toList <+: ahead
  · obtain ⟨tail, rfl⟩ := read
    obtain ⟨c, more, beginning⟩ := List.exists_cons_of_ne_nil given
    obtain ⟨d, others, ending⟩ := List.exists_cons_of_ne_nil (List.reverse_ne_nil_iff.mpr given)
    have first : isWord c = true := letters c (beginning ▸ List.mem_cons_self)
    have last : isWord d = true := letters d (List.mem_reverse.mp (ending ▸ List.mem_cons_self))
    have starts : Place.isWordEdge { behind, ahead := text.toList ++ tail } = true := by
      simp [Place.isWordEdge, begins, beginning, first]
    have stops : Place.isWordEdge (Place.along { behind, ahead := text.toList ++ tail } text.toList tail) =
        !tail.head?.any isWord := by
      simp [Place.isWordEdge, Place.along, ending, last]
    have begun : text.toList.isPrefixOf (text.toList ++ tail) = true :=
      List.isPrefixOf_iff_prefix.mpr (List.prefix_append _ _)
    have run := takeWhile_append_iff tail letters
    rw [matchAt_wholeWord, List.drop_left, starts, stops, begun, Bool.true_and, Bool.true_and]
    cases follows : tail.head?.any isWord with
    | true =>
        rw [follows] at run
        rw [if_neg fun same => Bool.false_ne_true (run.mp same).symm]
        rfl
    | false =>
        have kept : (text.toList ++ tail).dropWhile isWord = tail := by
          have whole := List.takeWhile_append_dropWhile (p := isWord) (l := text.toList ++ tail)
          rw [run.mpr follows] at whole
          exact List.append_cancel_left whole
        rw [if_pos (run.mpr follows), kept]
        rfl
  · have unread : text.toList.isPrefixOf ahead = false := by
      apply Bool.eq_false_iff.mpr
      exact fun begun => read (List.isPrefixOf_iff_prefix.mp begun)
    rw [matchAt_wholeWord, unread, Bool.false_and, Bool.and_false, if_neg Bool.false_ne_true, if_neg]
    exact fun run => read (run ▸ List.takeWhile_prefix isWord)

end parts

section operator

theorem matchAt_operator (behind ahead : List Char) : operator.matchAt? behind ahead =
    (((Pattern.words ["&&", "||"]).matchAt? behind ahead).or
      ((anyOf (wordOperators.map fun text => wholeWord [text])).matchAt? behind ahead)).or
        (((Pattern.words ["===", "!==", "==", "!=", "<=", ">="]).matchAt? behind ahead).or
          (angle.matchAt? behind ahead)) := by
  have parts : operator = anyOf ((["&&", "||"].map literal ++ wordOperators.map fun text => wholeWord [text]) ++
    (["===", "!==", "==", "!=", "<=", ">="].map literal ++ [angle])) := rfl
  rw [parts, matchAt_anyOf, List.findSome?_append, List.findSome?_append, List.findSome?_append, Pattern.words,
    matchAt_anyOf, matchAt_anyOf, Pattern.words, matchAt_anyOf]
  simp

variable {c : Char} {rest : List Char}

theorem sign_chars : ∀ sign ∈ signs, sign.toList ≠ [] ∧ ∀ c ∈ sign.toList, isWord c = false := by
  have table : ∀ sign ∈ signs, sign.toList ≠ [] ∧ sign.toList.any isWord = false := by decide +kernel
  intro sign listed
  obtain ⟨given, marks⟩ := table sign listed
  exact ⟨given, fun c held => Bool.eq_false_iff.mpr (List.any_eq_false.mp marks c held)⟩

theorem word_chars : ∀ text ∈ wordOperators, text.toList ≠ [] ∧ ∀ c ∈ text.toList, isWord c = true := by
  have table : ∀ text ∈ wordOperators, text.toList ≠ [] ∧ text.toList.all isWord = true := by decide +kernel
  intro text listed
  obtain ⟨given, letters⟩ := table text listed
  exact ⟨given, List.all_eq_true.mp letters⟩

theorem angle_iff {c : Char} : c ∈ "<>".toList ↔ c = '<' ∨ c = '>' := by
  simp

theorem near_of_angle {c : Char} (angled : c ∈ "<>".toList) : c ∈ "<=>-".toList := by
  rcases angle_iff.mp angled with rfl | rfl <;> simp

theorem not_isWord_of_near {c : Char} (near : c ∈ "<=>-".toList) : isWord c = false := by
  have marks : "<=>-".toList.any isWord = false := by decide +kernel
  exact Bool.eq_false_iff.mpr (List.any_eq_false.mp marks c near)

theorem words_unmatched {choices : List String} (chosen : ∀ choice ∈ choices, choice ∈ signs) (word : isWord c = true)
    (behind : List Char) : (Pattern.words choices).matchAt? behind (c :: rest) = none := by
  rw [matchAt_words, Option.map_eq_none_iff, List.find?_eq_none]
  intro choice listed begun
  obtain ⟨given, marks⟩ := sign_chars choice (chosen choice listed)
  obtain ⟨d, more, beginning⟩ := List.exists_cons_of_ne_nil given
  rw [beginning, List.isPrefixOf_iff_prefix, List.cons_prefix_cons] at begun
  have mark := marks d (beginning ▸ List.mem_cons_self)
  rw [begun.1, word] at mark
  cases mark

theorem matchAt_operator_sign (mark : isWord c = false) (behind : List Char) : operator.matchAt? behind (c :: rest) =
    ((Pattern.words joined).matchAt? behind (c :: rest)).or (angle.matchAt? behind (c :: rest)) := by
  have noWord : (anyOf (wordOperators.map fun text => wholeWord [text])).matchAt? behind (c :: rest) = none := by
    rw [matchAt_anyOf, List.findSome?_eq_none_iff, List.forall_mem_map]
    intro text listed
    obtain ⟨given, letters⟩ := word_chars text listed
    obtain ⟨d, more, beginning⟩ := List.exists_cons_of_ne_nil given
    have unread : text.toList.isPrefixOf (c :: rest) = false := by
      apply Bool.eq_false_iff.mpr
      intro begun
      rw [beginning, List.isPrefixOf_iff_prefix, List.cons_prefix_cons] at begun
      have letter := letters d (beginning ▸ List.mem_cons_self)
      rw [begun.1, mark] at letter
      cases letter
    rw [matchAt_wholeWord, unread, Bool.false_and, Bool.and_false, if_neg Bool.false_ne_true]
  have split : joined = ["&&", "||"] ++ ["===", "!==", "==", "!=", "<=", ">="] := rfl
  rw [matchAt_operator, noWord, Option.or_none, ← Option.or_assoc, matchAt_words, matchAt_words, matchAt_words, split,
    List.find?_append]
  cases List.find? (fun choice => choice.toList.isPrefixOf (c :: rest)) ["&&", "||"] <;> rfl

theorem matchAt_operator_word (word : isWord c = true) (behind : List Char) : operator.matchAt? behind (c :: rest) =
    (anyOf (wordOperators.map fun text => wholeWord [text])).matchAt? behind (c :: rest) := by
  have noAngle : angle.matchAt? behind (c :: rest) = none := by
    rw [matchAt_angle, if_neg]
    rintro ⟨-, angled, -⟩
    rcases angle_iff.mp (List.contains_iff_mem.mp angled) with rfl | rfl <;> cases word
  rw [matchAt_operator, words_unmatched (by decide) word, words_unmatched (by decide) word, noAngle, Option.none_or,
    Option.or_none, Option.or_none]

theorem matchAt_operator_begun (rest : List Char) (word : isWord c = true) {behind : List Char}
    (begins : behind.head?.any isWord = false) : operator.matchAt? behind (c :: rest) =
    if String.ofList ((c :: rest).takeWhile isWord) ∈ wordOperators then
      some ⟨behind, (c :: rest).takeWhile isWord, (c :: rest).dropWhile isWord, []⟩ else none := by
  rw [matchAt_operator_word word, matchAt_anyOf, List.findSome?_map]
  generalize run : (c :: rest).takeWhile isWord = text
  have each : ∀ choice ∈ wordOperators, (wholeWord [choice]).matchAt? behind (c :: rest) =
      if String.ofList text = choice then some ⟨behind, text, (c :: rest).dropWhile isWord, []⟩ else none := by
    intro choice listed
    obtain ⟨given, letters⟩ := word_chars choice listed
    rw [matchAt_wholeWord_run given letters begins, run]
    by_cases same : text = choice.toList
    · rw [if_pos same, if_pos (by rw [same, String.ofList_toList]), same]
    · rw [if_neg same, if_neg fun equal => same (by rw [← equal, String.toList_ofList])]
  by_cases listed : String.ofList text ∈ wordOperators
  · obtain ⟨front, back, split, first⟩ := List.eq_append_cons_of_mem listed
    rw [if_pos listed, List.findSome?_eq_some_iff]
    refine ⟨front, _, back, split, by simp [each _ listed], ?_⟩
    intro choice earlier
    have among : choice ∈ wordOperators := split ▸ List.mem_append_left _ earlier
    rw [Function.comp_apply, each choice among, if_neg]
    rintro rfl
    exact first earlier
  · rw [if_neg listed, List.findSome?_eq_none_iff]
    intro choice among
    rw [Function.comp_apply, each choice among, if_neg]
    rintro rfl
    exact listed among

theorem matchAt_operator_inner (word : isWord c = true) {behind : List Char} (inner : behind.head?.any isWord = true) :
    operator.matchAt? behind (c :: rest) = none := by
  have edge : Place.isWordEdge { behind, ahead := c :: rest } = false := by
    rw [isWordEdge_cons word, inner]
    rfl
  rw [matchAt_operator_word word, matchAt_anyOf, List.findSome?_eq_none_iff, List.forall_mem_map]
  intro text _
  rw [matchAt_wholeWord, edge, Bool.false_and, if_neg Bool.false_ne_true]

end operator

/-- No longer sign begins the text. -/
def Longest (sign : String) (s : List Char) : Prop := ∀ other ∈ signs, other.toList <+: s → other.length ≤ sign.length

theorem longest_of_find {sign : String} {s : List Char} (first : signs.find? (·.toList.isPrefixOf s) = some sign) :
    Longest sign s := by
  -- The table is in falling order, so the first sign that begins the text is the longest that does.
  have falling : signs.Pairwise fun front back => back.length ≤ front.length := by decide
  obtain ⟨-, front, back, split, earlier⟩ := List.find?_eq_some_iff_append.mp first
  intro other listed begun
  rw [split] at listed falling
  rcases List.mem_append.mp listed with before | later
  · have unread := earlier other before
    rw [List.isPrefixOf_iff_prefix.mpr begun] at unread
    cases unread
  · rcases List.mem_cons.mp later with rfl | behind
    · exact Nat.le_refl _
    · exact List.rel_of_pairwise_cons (List.pairwise_append.mp falling).2.1 behind

section matched

variable {sign : String} {tail : List Char}

theorem joined_matched (listed : sign ∈ joined) (longest : Longest sign (sign.toList ++ tail)) (behind : List Char) :
    operator.matchAt? behind (sign.toList ++ tail) = some ⟨behind, sign.toList, tail, []⟩ := by
  have among : ∀ other ∈ joined, other ∈ signs := by decide
  have order : joined.Pairwise fun front back => ¬front.toList <+: back.toList := by decide +kernel
  have begun : sign.toList.isPrefixOf (sign.toList ++ tail) = true :=
    List.isPrefixOf_iff_prefix.mpr (List.prefix_append _ _)
  have found : (joined.find? fun other => other.toList.isPrefixOf (sign.toList ++ tail)) = some sign := by
    have some : (joined.find? fun other => other.toList.isPrefixOf (sign.toList ++ tail)).isSome = true :=
      List.find?_isSome.mpr ⟨sign, listed, begun⟩
    obtain ⟨first, found⟩ := Option.isSome_iff_exists.mp some
    obtain ⟨reads, front, back, split, earlier⟩ := List.find?_eq_some_iff_append.mp found
    rw [split] at listed order
    rcases List.mem_append.mp listed with before | later
    · have unread := earlier sign before
      rw [begun] at unread
      cases unread
    · rcases List.mem_cons.mp later with rfl | after
      · exact found
      · have apart := List.rel_of_pairwise_cons (List.pairwise_append.mp order).2.1 after
        have reads := List.isPrefixOf_iff_prefix.mp reads
        have shorter := longest first (among first (List.mem_of_find?_eq_some found)) reads
        rw [← String.length_toList, ← String.length_toList] at shorter
        exact absurd (List.prefix_of_prefix_length_le reads (List.prefix_append _ _) shorter) apart
  obtain ⟨given, marks⟩ := sign_chars sign (among sign listed)
  obtain ⟨c, more, beginning⟩ := List.exists_cons_of_ne_nil given
  have mark : isWord c = false := marks c (beginning ▸ List.mem_cons_self)
  have text : sign.toList ++ tail = c :: (more ++ tail) := by rw [beginning]; rfl
  rw [text, matchAt_operator_sign mark, ← text, matchAt_words, found, Option.map_some, List.drop_left, Option.some_or]

theorem joined_unmatched {s : List Char} (unread : ∀ other ∈ joined, ¬other.toList <+: s) (behind : List Char) :
    (Pattern.words joined).matchAt? behind s = none := by
  rw [matchAt_words, Option.map_eq_none_iff, List.find?_eq_none]
  exact fun other listed begun => unread other listed (List.isPrefixOf_iff_prefix.mp begun)

theorem sign_unmatched {c : Char} {rest : List Char} (mark : isWord c = false)
    (unread : ∀ sign ∈ signs, ¬sign.toList <+: c :: rest) (behind : List Char) :
    operator.matchAt? behind (c :: rest) = none := by
  have among : ∀ other ∈ joined, other ∈ signs := by decide
  rw [matchAt_operator_sign mark, joined_unmatched (fun other listed => unread other (among other listed)),
    Option.none_or, matchAt_angle, if_neg]
  rintro ⟨-, angled, -⟩
  have single : String.ofList [c] ∈ signs := by
    rcases angle_iff.mp (List.contains_iff_mem.mp angled) with rfl | rfl <;> decide
  apply unread _ single
  rw [String.toList_ofList]
  exact ⟨rest, rfl⟩

theorem angle_matched {c : Char} {rest : List Char} (angled : c ∈ "<>".toList)
    (longest : Longest (String.ofList [c]) (c :: rest)) (behind : List Char) :
    operator.matchAt? behind (c :: rest) = if behind.head?.any "<=>-".toList.contains = false ∧
      rest.head?.any "<=>".toList.contains = false then some ⟨behind, [c], rest, []⟩ else none := by
  have among : ∀ other ∈ joined, other ∈ signs ∧ 2 ≤ other.length := by decide
  have unread : ∀ other ∈ joined, ¬other.toList <+: c :: rest := by
    intro other listed begun
    have shorter := longest other (among other listed).1 begun
    have more := Nat.le_trans (among other listed).2 shorter
    rw [String.length_ofList] at more
    exact absurd more (Nat.lt_irrefl 1)
  rw [matchAt_operator_sign (not_isWord_of_near (near_of_angle angled)), joined_unmatched unread, Option.none_or,
    matchAt_angle]
  simp only [List.contains_iff_mem, angled, true_and]

theorem front_unmatched {c d : Char} {rest : List Char} (near : c ∈ "<=>-".toList) (angled : d ∈ "<>".toList)
    (behind : List Char) : operator.matchAt? behind (c :: d :: rest) = none := by
  -- In front of an angle sign no character of a shift or an arrow is matched.
  have seconds : ∀ other ∈ joined, other.toList[1]? ≠ some '<' ∧ other.toList[1]? ≠ some '>' ∧
      2 ≤ other.toList.length := by
    decide +kernel
  have next : "<=>".toList.contains d = true := by
    rcases angle_iff.mp angled with rfl | rfl <;> simp
  have unread : ∀ other ∈ joined, ¬other.toList <+: c :: d :: rest := by
    intro other listed begun
    obtain ⟨noLess, noGreater, more⟩ := seconds other listed
    obtain ⟨tail, split⟩ := begun
    have second := congrArg (·[1]?) split
    rw [List.getElem?_append_left more] at second
    rcases angle_iff.mp angled with rfl | rfl
    · exact noLess second
    · exact noGreater second
  rw [matchAt_operator_sign (not_isWord_of_near near), joined_unmatched unread, Option.none_or, matchAt_angle, if_neg]
  rintro ⟨-, -, free⟩
  rw [List.head?_cons, Option.any_some, next] at free
  cases free

theorem back_matched {c : Char} {rest : List Char} (angled : c ∈ "<>".toList) {behind : List Char}
    (near : behind.head?.any "<=>-".toList.contains = true) : operator.matchAt? behind (c :: rest) =
      if rest.head? = some '=' then some ⟨behind, [c, '='], rest.tail, []⟩ else none := by
  have single : angle.matchAt? behind (c :: rest) = none := by
    rw [matchAt_angle, if_neg]
    rintro ⟨free, -⟩
    rw [near] at free
    cases free
  have first := angle_iff.mp angled
  rw [matchAt_operator_sign (not_isWord_of_near (near_of_angle angled)), single, Option.or_none, matchAt_words]
  cases rest with
  | nil => rcases first with rfl | rfl <;> simp [joined]
  | cons d rest =>
      by_cases equals : d = '='
      · rcases first with rfl | rfl <;> simp [joined, equals]
      · rcases first with rfl | rfl <;> simp [joined, equals, Ne.symm equals]

end matched

end Decision

end FlowAtlas
