import FlowAtlas.Proofs.Extraction.Literals

namespace FlowAtlas.Extraction

section cutting

variable {a b : Char}

theorem cutAt_here (a b : Char) (rest : List Char) : Text.cutAt [a, b] (a :: b :: rest) = some ([], rest) := by
  simp [Text.cutAt]

theorem cutAt_cons {c : Char} {rest : List Char} (apart : c = a → rest.head? ≠ some b) :
    Text.cutAt [a, b] (c :: rest) = (Text.cutAt [a, b] rest).map fun cut => (c :: cut.1, cut.2) := by
  have elsewhere : [a, b].isPrefixOf (c :: rest) = false := by
    rcases rest with _ | ⟨d, further⟩
    · simp [List.isPrefixOf]
    · have differ : c = a → ¬ d = b := by simpa using apart
      simp only [List.isPrefixOf, Bool.and_true, Bool.and_eq_false_iff, beq_eq_false_iff_ne]
      by_cases same : c = a
      · exact Or.inr (Ne.symm (differ same))
      · exact Or.inl (Ne.symm same)
  rw [Text.cutAt, elsewhere]
  rfl

theorem apart_of_cutAt_none {c : Char} {rest : List Char} (none : Text.cutAt [a, b] (c :: rest) = none) :
    (c = a → rest.head? ≠ some b) ∧ Text.cutAt [a, b] rest = Option.none := by
  have apart : c = a → rest.head? ≠ some b := by
    rintro rfl second
    obtain ⟨further, rfl⟩ := List.head?_eq_some_iff.mp second
    rw [cutAt_here] at none
    cases none
  refine ⟨apart, ?_⟩
  rwa [cutAt_cons apart, Option.map_eq_none_iff] at none

theorem cutAt_cases {c : Char} {tail before behind : List Char}
    (cut : Text.cutAt [a, b] (c :: tail) = some (before, behind)) :
    before = [] ∧ c = a ∧ tail = b :: behind ∨
      ∃ front, before = c :: front ∧ (c = a → tail.head? ≠ some b) ∧ Text.cutAt [a, b] tail = some (front, behind) := by
  by_cases here : c = a ∧ tail.head? = some b
  · left
    obtain ⟨rfl, second⟩ := here
    obtain ⟨further, rfl⟩ := List.head?_eq_some_iff.mp second
    rw [cutAt_here] at cut
    cases cut
    exact ⟨rfl, rfl, rfl⟩
  · right
    have apart : c = a → tail.head? ≠ some b := fun same second => here ⟨same, second⟩
    rw [cutAt_cons apart, Option.map_eq_some_iff] at cut
    obtain ⟨parts, cut, same⟩ := cut
    obtain ⟨rfl, rfl⟩ := Prod.mk.inj same
    exact ⟨parts.1, rfl, apart, cut⟩

theorem cutAt_split (s : List Char) : ∀ {before behind : List Char},
    Text.cutAt [a, b] s = some (before, behind) →
      s = before ++ a :: b :: behind ∧ Text.cutAt [a, b] before = Option.none := by
  induction s with
  | nil => intro before behind cut; simp [Text.cutAt] at cut
  | cons c tail ih =>
      intro before behind cut
      rcases cutAt_cases cut with ⟨rfl, rfl, rfl⟩ | ⟨front, rfl, apart, cut⟩
      · exact ⟨rfl, rfl⟩
      · obtain ⟨rfl, none⟩ := ih cut
        have still : c = a → front.head? ≠ some b := by
          intro same
          cases front with
          | nil => simp
          | cons d more => simpa using apart same
        refine ⟨rfl, ?_⟩
        rw [cutAt_cons still, none]
        rfl

theorem cutAt_suffix {front rest : List Char} (none : Text.cutAt [a, b] (front ++ rest) = none) :
    Text.cutAt [a, b] rest = Option.none := by
  induction front with
  | nil => exact none
  | cons c tail ih => exact ih (apart_of_cutAt_none none).2

theorem cutAt_append (differ : a ≠ b) (s rest : List Char) (none : Text.cutAt [a, b] s = none) :
    Text.cutAt [a, b] (s ++ a :: b :: rest) = some (s, rest) := by
  induction s with
  | nil => exact cutAt_here a b rest
  | cons c tail ih =>
      obtain ⟨apart, none⟩ := apart_of_cutAt_none none
      have still : c = a → (tail ++ a :: b :: rest).head? ≠ some b := by
        intro same
        cases tail with
        | nil => simpa using differ
        | cons d further => simpa using apart same
      rw [List.cons_append, cutAt_cons still, ih none]
      rfl

end cutting

theorem withoutLiterals_head {s : List Char} {d : Char} (plain : isQuote d = false) :
    (withoutLiterals s).head? = some d ↔ s.head? = some d := by
  cases s with
  | nil => exact Iff.rfl
  | cons c rest =>
      cases ends : literalEnd? (c :: rest) with
      | none => rw [withoutLiterals_between ends, List.head?_cons, List.head?_cons]
      | some further =>
          have quoted := isQuote_of_literalEnd ends
          have other : ∀ quote, isQuote quote = true → quote ≠ d := by
            rintro quote quoted rfl
            rw [plain] at quoted
            cases quoted
          have double : doubleQuote ≠ d := other doubleQuote (by decide)
          simp [withoutLiterals_literal ends, double, other c quoted]

theorem cutAt_withoutLiterals {a b : Char} (first : isQuote a = false) (second : isQuote b = false) (s : List Char)
    (none : Text.cutAt [a, b] s = none) : Text.cutAt [a, b] (withoutLiterals s) = Option.none := by
  have double : doubleQuote ≠ a := by
    rintro rfl
    exact absurd first (by decide)
  induction s using literals_induction with
  | nil => rfl
  | between c rest ends ih =>
      obtain ⟨apart, none⟩ := apart_of_cutAt_none none
      rw [withoutLiterals_between ends, cutAt_cons, ih none]
      · rfl
      · intro same
        rw [Ne, withoutLiterals_head second]
        exact apart same
  | literal c rest further ends ih =>
      obtain ⟨body, rfl⟩ := literalEnd_suffix ends
      have behind : Text.cutAt [a, b] further = Option.none := cutAt_suffix (apart_of_cutAt_none none).2
      rw [withoutLiterals_literal ends, cutAt_cons fun same => absurd same double,
        cutAt_cons fun same => absurd same double, ih behind]
      rfl

section stripping

variable {s kept rest : List Char}

theorem strip_kept (none : Text.cutAt ['/', '*'] s = none) : stripBlockComments false s = (s, false) := by
  rw [stripBlockComments, if_neg (by decide)]
  split
  · rfl
  · rename_i found
    rw [none] at found
    cases found

theorem strip_opens (opens : Text.cutAt ['/', '*'] s = some (kept, rest)) :
    stripBlockComments false s = (kept ++ (stripBlockComments true rest).1, (stripBlockComments true rest).2) := by
  rw [stripBlockComments, if_neg (by decide)]
  split
  · rename_i found
    rw [opens] at found
    cases found
  · rename_i found
    rw [opens] at found
    cases found
    rfl

theorem strip_inside (none : Text.cutAt ['*', '/'] s = none) : stripBlockComments true s = ([], true) := by
  rw [stripBlockComments, if_pos rfl]
  split
  · rfl
  · rename_i found
    rw [none] at found
    cases found

theorem strip_closes (closes : Text.cutAt ['*', '/'] s = some (kept, rest)) :
    stripBlockComments true s = stripBlockComments false rest := by
  rw [stripBlockComments, if_pos rfl]
  split
  · rename_i found
    rw [closes] at found
    cases found
  · rename_i found
    rw [closes] at found
    cases found
    rfl

theorem strip_cons {c : Char} (apart : c = '/' → rest.head? ≠ some '*') :
    stripBlockComments false (c :: rest) =
      (c :: (stripBlockComments false rest).1, (stripBlockComments false rest).2) := by
  have later := cutAt_cons apart
  cases cut : Text.cutAt ['/', '*'] rest with
  | none =>
      rw [cut] at later
      rw [strip_kept later, strip_kept cut]
  | some parts =>
      rw [cut] at later
      rw [strip_opens later, strip_opens cut]
      rfl

theorem strip_opened (rest : List Char) :
    stripBlockComments false ('/' :: '*' :: rest) = stripBlockComments true rest :=
  strip_opens (cutAt_here _ _ _)

theorem strip_closed (rest : List Char) :
    stripBlockComments true ('*' :: '/' :: rest) = stripBlockComments false rest :=
  strip_closes (cutAt_here _ _ _)

theorem strip_hidden {c : Char} (apart : c = '*' → rest.head? ≠ some '/') :
    stripBlockComments true (c :: rest) = stripBlockComments true rest := by
  have later := cutAt_cons apart
  cases cut : Text.cutAt ['*', '/'] rest with
  | none =>
      rw [cut] at later
      rw [strip_inside later, strip_inside cut]
  | some parts =>
      rw [cut] at later
      rw [strip_closes later, strip_closes cut]

theorem strip_head (apart : s.head? ≠ some '/') : (stripBlockComments false s).1.head? = s.head? := by
  cases s with
  | nil => rw [strip_kept rfl]
  | cons c rest =>
      have other : c ≠ '/' := by simpa using apart
      rw [strip_cons fun same => absurd same other]
      rfl

theorem dropLine_cons {c : Char} (apart : c = '/' → rest.head? ≠ some '/') :
    dropLineComment (c :: rest) = c :: dropLineComment rest := by
  rw [dropLineComment, dropLineComment, cutAt_cons apart]
  cases Text.cutAt ['/', '/'] rest <;> rfl

theorem behind_sublist {s before behind : List Char} {a b : Char} (cut : Text.cutAt [a, b] s = some (before, behind)) :
    (before ++ behind).Sublist s := by
  rw [(cutAt_split s cut).1]
  exact (List.Sublist.refl before).append ((List.sublist_cons_self b behind).trans (List.sublist_cons_self a _))

theorem strip_sublist (inComment : Bool) (s : List Char) : (stripBlockComments inComment s).1.Sublist s := by
  fun_induction stripBlockComments inComment s with
  | case1 => exact List.nil_sublist _
  | case2 s before rest cut ih => exact (ih.trans (List.sublist_append_right before rest)).trans (behind_sublist cut)
  | case3 => exact List.Sublist.refl _
  | case4 _ s _ kept rest cut tail stillOpen same ih =>
      rw [same] at ih
      exact ((List.Sublist.refl kept).append ih).trans (behind_sublist cut)

theorem dropLine_sublist (s : List Char) : (dropLineComment s).Sublist s := by
  rw [dropLineComment]
  split
  · rename_i cut
    exact (List.sublist_append_left _ _).trans (behind_sublist cut)
  · exact List.Sublist.refl s

end stripping

section line

variable {rest : List Char}

theorem bracedCode_eq (inComment : Bool) (raw : List Char) :
    bracedCode inComment raw =
      (dropLineComment (stripBlockComments inComment (withoutLiterals raw)).1,
        (stripBlockComments inComment (withoutLiterals raw)).2) := rfl

theorem mem_bracedCode {c : Char} (plain : isQuote c = false) {inComment : Bool} {raw : List Char}
    (member : c ∈ (bracedCode inComment raw).1) : c ∈ raw :=
  mem_withoutLiterals plain ((strip_sublist _ _).subset ((dropLine_sublist _).subset member))

theorem bracedCode_nil : bracedCode false [] = ([], false) := by
  rw [bracedCode_eq, withoutLiterals_nil, strip_kept rfl]
  rfl

theorem bracedCode_cons {c : Char} (plain : isQuote c = false)
    (apart : c = '/' → rest.head? ≠ some '/' ∧ rest.head? ≠ some '*') :
    bracedCode false (c :: rest) = (c :: (bracedCode false rest).1, (bracedCode false rest).2) := by
  have block : c = '/' → (withoutLiterals rest).head? ≠ some '*' := by
    intro same
    rw [Ne, withoutLiterals_head (by decide)]
    exact (apart same).2
  have line : c = '/' → (stripBlockComments false (withoutLiterals rest)).1.head? ≠ some '/' := by
    intro same
    have behind : (withoutLiterals rest).head? ≠ some '/' := by
      rw [Ne, withoutLiterals_head (by decide)]
      exact (apart same).1
    rwa [strip_head behind]
  rw [bracedCode_eq, withoutLiterals_plain plain, strip_cons block, dropLine_cons line]
  rfl

theorem bracedCode_literal {quote : Char} {further : List Char} (ends : literalEnd? (quote :: rest) = some further) :
    bracedCode false (quote :: rest) =
      (doubleQuote :: doubleQuote :: (bracedCode false further).1, (bracedCode false further).2) := by
  have plain : ¬ doubleQuote = '/' := by decide
  rw [bracedCode_eq, withoutLiterals_literal ends, strip_cons fun same => absurd same plain,
    strip_cons fun same => absurd same plain, dropLine_cons fun same => absurd same plain,
    dropLine_cons fun same => absurd same plain]
  rfl

theorem bracedCode_opens (rest : List Char) : bracedCode false ('/' :: '*' :: rest) = bracedCode true rest := by
  rw [bracedCode_eq, withoutLiterals_plain (by decide), withoutLiterals_plain (by decide), strip_opened]
  rfl

theorem bracedCode_inside {text : List Char} (inside : Text.cutAt ['*', '/'] text = none) :
    bracedCode true text = ([], true) := by
  have none := cutAt_withoutLiterals (by decide) (by decide) text inside
  rw [bracedCode_eq, strip_inside none]
  rfl

/-- A block comment ends where it seems to, unless a literal that begins in it is closed behind it. -/
theorem bracedCode_closes {text : List Char} (inside : Text.cutAt ['*', '/'] text = none)
    (apart : withoutLiterals (text ++ '*' :: '/' :: rest) = withoutLiterals text ++ withoutLiterals ('*' :: '/' :: rest)) :
    bracedCode true (text ++ '*' :: '/' :: rest) = bracedCode false rest := by
  have none := cutAt_withoutLiterals (by decide) (by decide) text inside
  rw [withoutLiterals_plain (by decide), withoutLiterals_plain (by decide)] at apart
  rw [bracedCode_eq, apart, strip_closes (cutAt_append (by decide) _ _ none)]
  rfl

/-- A line comment hides what follows, unless a block comment seems to begin in it and stays open, or to begin at
its second slash. -/
theorem bracedCode_line {text : List Char} (begins : text.head? ≠ some '*')
    (closed : (stripBlockComments false (withoutLiterals text)).2 = false) :
    bracedCode false ('/' :: '/' :: text) = ([], false) := by
  have begins : (withoutLiterals text).head? ≠ some '*' := by
    rwa [Ne, withoutLiterals_head (by decide)]
  rw [bracedCode_eq, withoutLiterals_plain (by decide), withoutLiterals_plain (by decide),
    strip_cons (by simp), strip_cons fun _ => begins, closed]
  rw [dropLineComment, cutAt_here]

end line

end FlowAtlas.Extraction
