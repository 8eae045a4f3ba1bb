import FlowAtlas.Proofs.Extraction.Literals

/-! Literals and comments of indented languages, read one character after the other without looking ahead. -/

namespace FlowAtlas.Extraction

def LongQuote.mark : LongQuote → Char
  | .double => doubleQuote
  | .single => singleQuote

def LongQuote.of? (c : Char) : Option LongQuote :=
  if c == doubleQuote then some .double else if c == singleQuote then some .single else none

/-- What a reader is in between two characters. A quote opens a literal, two of a kind are an empty one, and three of
them open a long literal, which three more close. -/
inductive Quoting where
  | code
  | comment
  | one (quote : LongQuote)
  | two (quote : LongQuote)
  | short (quote : LongQuote) (escaped : Bool)
  | long (quote : LongQuote) (seen : Nat)
  deriving DecidableEq, Repr

def writeLiteral (read : List Char × Option LongQuote) : List Char × Option LongQuote :=
  (emptyLiteral ++ read.1, read.2)

namespace Quoting

def fromCode (c : Char) : Quoting :=
  if c == '#' then comment
  else match LongQuote.of? c with
    | some quote => one quote
    | none => code

def next : Quoting → Char → Quoting
  | code, c => fromCode c
  | comment, _ => comment
  | one quote, c => if c == quote.mark then two quote else short quote (c == '\\')
  | two quote, c => if c == quote.mark then long quote 0 else fromCode c
  | short quote escaped, c =>
    if escaped then short quote false else if c == quote.mark then code else short quote (c == '\\')
  | long quote seen, c =>
    if c == quote.mark then if seen = 2 then code else long quote (seen + 1) else long quote 0

def codeOf (c : Char) : List Char := if c == '#' || (LongQuote.of? c).isSome then [] else [c]

/-- The code that is known at a character. That a literal is not the beginning of a long one shows behind it. -/
def writes : Quoting → Char → List Char
  | code, c => codeOf c
  | comment, _ | short _ _, _ => []
  | one quote, c => if c == quote.mark then [] else emptyLiteral
  | two quote, c => if c == quote.mark then [] else emptyLiteral ++ codeOf c
  | long quote seen, c => if c == quote.mark && seen == 2 then emptyLiteral else []

def leaves : Quoting → List Char
  | one _ | two _ => emptyLiteral
  | _ => []

def opened? : Quoting → Option LongQuote
  | long quote _ => some quote
  | _ => none

def ofOpened : Option LongQuote → Quoting
  | some quote => long quote 0
  | none => code

def after (mode : Quoting) (s : List Char) : Quoting := s.foldl next mode

def endLine (mode : Quoting) : Quoting := ofOpened mode.opened?

def run : Quoting → List Char → List Char × Option LongQuote
  | mode, [] => (mode.leaves, mode.opened?)
  | mode, c :: rest => ((mode.writes c) ++ (run (mode.next c) rest).1, (run (mode.next c) rest).2)

theorem opened_ofOpened (opened : Option LongQuote) : (ofOpened opened).opened? = opened := by cases opened <;> rfl

@[simp] theorem after_cons (mode : Quoting) (c : Char) (rest : List Char) :
    mode.after (c :: rest) = (mode.next c).after rest := rfl

theorem run_opened (s : List Char) : ∀ mode : Quoting, (mode.run s).2 = (mode.after s).opened? := by
  induction s with
  | nil => exact fun _ => rfl
  | cons c rest ih => exact fun mode => ih (mode.next c)

theorem run_append {first second : List Char} (before : List Char) : ∀ mode : Quoting,
    (mode.after before).run first = (mode.after before).run second →
      mode.run (before ++ first) = mode.run (before ++ second) := by
  induction before with
  | nil => exact fun _ same => same
  | cons c rest ih =>
      intro mode same
      have goesOn := ih (mode.next c) same
      rw [List.cons_append, List.cons_append, run, run, goesOn]

theorem run_comment (s : List Char) : comment.run s = ([], none) := by
  induction s with
  | nil => rfl
  | cons c rest ih =>
      rw [run, next, ih]
      rfl

section marks

variable {quote : LongQuote} {c : Char}

theorem of_mark : LongQuote.of? quote.mark = some quote := by cases quote <;> decide

theorem mark_of {quote : LongQuote} (quoted : LongQuote.of? c = some quote) : c = quote.mark := by
  rw [LongQuote.of?] at quoted
  split at quoted
  · rename_i same
    rw [← Option.some.inj quoted]
    exact eq_of_beq same
  · split at quoted
    · rename_i same
      rw [← Option.some.inj quoted]
      exact eq_of_beq same
    · cases quoted

theorem isQuote_mark : isQuote quote.mark = true := by cases quote <;> decide

theorem mark_ne_hash : quote.mark ≠ '#' := by cases quote <;> decide

theorem text_eq : quote.text = [quote.mark, quote.mark, quote.mark] := by cases quote <;> rfl

theorem longQuote_text (rest : List Char) : longQuote? (quote.text ++ rest) = some quote := by
  cases quote <;> simp [longQuote?, LongQuote.text, List.isPrefixOf, doubleQuote, singleQuote]

theorem longQuote_none (plain : LongQuote.of? c = none) (rest : List Char) : longQuote? (c :: rest) = none := by
  have apart : ∀ quote : LongQuote, quote.mark ≠ c := by
    rintro quote rfl
    rw [of_mark] at plain
    cases plain
  simp [longQuote?, text_eq, List.isPrefixOf, apart]

theorem longQuote_some {rest : List Char} {other : LongQuote}
    (long : longQuote? (quote.mark :: rest) = some other) : ∃ more, quote.mark :: rest = quote.text ++ more := by
  rw [longQuote?] at long
  have starts := List.find?_some long
  obtain ⟨more, split⟩ := List.isPrefixOf_iff_prefix.mp starts
  rw [text_eq] at split
  have marks : other.mark = quote.mark := (List.cons.inj split).1
  exact ⟨more, by rw [← split, text_eq, marks]⟩

theorem run_code_hash (s : List Char) : code.run ('#' :: s) = ([], none) := by
  have same : code.run ('#' :: s) = comment.run s := rfl
  rw [same, run_comment]

theorem run_code_mark (s : List Char) : code.run (quote.mark :: s) = (one quote).run s := by
  have next : fromCode quote.mark = one quote := by
    rw [fromCode, if_neg (by simpa using mark_ne_hash), of_mark]
  have writes : codeOf quote.mark = [] := by simp [codeOf, of_mark]
  rw [run, Quoting.writes, Quoting.next, next, writes]
  rfl

theorem run_code_plain (plain : LongQuote.of? c = none) (other : c ≠ '#') (s : List Char) :
    code.run (c :: s) = (c :: (code.run s).1, (code.run s).2) := by
  have next : fromCode c = code := by
    rw [fromCode, if_neg (by simpa using other), plain]
  have writes : codeOf c = [c] := by simp [codeOf, plain, other]
  rw [run, Quoting.writes, Quoting.next, next, writes]
  rfl

theorem run_one_mark (s : List Char) : (one quote).run (quote.mark :: s) = (two quote).run s := by
  simp [run, writes, next]

theorem run_one_other (other : c ≠ quote.mark) (s : List Char) :
    (one quote).run (c :: s) = writeLiteral ((short quote (c == '\\')).run s) := by
  simp [run, writes, next, other, writeLiteral]

theorem run_two_mark (s : List Char) : (two quote).run (quote.mark :: s) = (long quote 0).run s := by
  simp [run, writes, next]

theorem run_two_other {s : List Char} (other : s.head? ≠ some quote.mark) :
    (two quote).run s = writeLiteral (code.run s) := by
  cases s with
  | nil => rfl
  | cons c rest =>
      have apart : c ≠ quote.mark := by simpa using other
      simp [run, writes, next, apart, writeLiteral]

theorem run_long_mark {seen : Nat} (few : seen ≠ 2) (s : List Char) :
    (long quote seen).run (quote.mark :: s) = (long quote (seen + 1)).run s := by
  simp [run, writes, next, few]

theorem run_long_last (s : List Char) :
    (long quote 2).run (quote.mark :: s) = writeLiteral (code.run s) := by
  simp [run, writes, next, writeLiteral]

theorem run_long_other {seen : Nat} (other : c ≠ quote.mark) (s : List Char) :
    (long quote seen).run (c :: s) = (long quote 0).run s := by
  simp [run, writes, next, other]

theorem run_short (s : List Char) : ∀ escaped : Bool, '\n' ∉ s →
    (short quote escaped).run s =
      match closing? quote.mark escaped s with
      | some further => code.run further
      | none => ([], none) := by
  induction s with
  | nil => exact fun _ _ => rfl
  | cons c rest ih =>
      intro escaped oneLine
      obtain ⟨first, others⟩ := not_or.mp (fun found => oneLine (List.mem_cons.mpr found))
      have step : (short quote escaped).run (c :: rest) = ((short quote escaped).next c).run rest := by
        simp [run, writes]
      rw [step, closing?, next]
      cases escaped with
      | true => rw [if_pos rfl, if_pos rfl, if_neg (by simpa using Ne.symm first), ih false others]
      | false =>
          simp only [Bool.false_eq_true, if_false]
          by_cases closes : c = quote.mark
          · rw [if_pos (by simpa using closes), if_pos (by simpa using closes)]
          · rw [if_neg (by simpa using closes), if_neg (by simpa using closes), ih _ others]

theorem run_long_apart {s : List Char} (apart : s.head? ≠ some quote.mark) (seen : Nat) :
    (long quote seen).run s = (long quote 0).run s := by
  -- Quotes in a long literal that are not followed by another do not close it.
  cases s with
  | nil => rfl
  | cons c rest =>
      have other : c ≠ quote.mark := by simpa using apart
      rw [run_long_other other, run_long_other other]

theorem run_long_step {rest : List Char} (apart : quote.text.isPrefixOf (c :: rest) = false) :
    (long quote 0).run (c :: rest) = (long quote 0).run rest := by
  by_cases first : c = quote.mark
  · subst first
    rw [run_long_mark (by decide)]
    cases rest with
    | nil => rfl
    | cons d more =>
        by_cases second : d = quote.mark
        · subst second
          have third : more.head? ≠ some quote.mark := by
            cases more with
            | nil => simp
            | cons e tail =>
                rintro same
                rw [Option.some.inj same] at apart
                cases quote <;> simp [LongQuote.text, LongQuote.mark, List.isPrefixOf] at apart
          calc (long quote 1).run (quote.mark :: more)
            _ = (long quote 2).run more := run_long_mark (by decide) more
            _ = (long quote 0).run more := run_long_apart third 2
            _ = (long quote 1).run more := (run_long_apart third 1).symm
            _ = (long quote 0).run (quote.mark :: more) := (run_long_mark (by decide) more).symm
        · exact run_long_apart (by simpa using second) 1
  · exact run_long_other first rest

theorem run_opens (rest : List Char) : code.run (quote.text ++ rest) = (long quote 0).run rest := by
  calc code.run (quote.text ++ rest)
    _ = code.run (quote.mark :: quote.mark :: quote.mark :: rest) := by rw [text_eq]; rfl
    _ = (long quote 0).run rest := by rw [run_code_mark, run_one_mark, run_two_mark]

theorem run_closes (rest : List Char) :
    (long quote 0).run (quote.text ++ rest) = writeLiteral (code.run rest) := by
  calc (long quote 0).run (quote.text ++ rest)
    _ = (long quote 0).run (quote.mark :: quote.mark :: quote.mark :: rest) := by rw [text_eq]; rfl
    _ = (long quote 2).run (quote.mark :: rest) := by rw [run_long_mark (by decide), run_long_mark (by decide)]
    _ = writeLiteral (code.run rest) := run_long_last rest

theorem run_literal {rest : List Char} (short : longQuote? (quote.mark :: rest) = none) (oneLine : '\n' ∉ rest) :
    code.run (quote.mark :: rest) =
      match closing? quote.mark false rest with
      | some further => writeLiteral (code.run further)
      | none => (emptyLiteral, none) := by
  rw [run_code_mark]
  cases rest with
  | nil => rfl
  | cons d more =>
      rw [closing?, if_neg (by decide)]
      by_cases second : d = quote.mark
      · subst second
        have third : more.head? ≠ some quote.mark := by
          intro same
          obtain ⟨tail, rfl⟩ := List.head?_eq_some_iff.mp same
          have long : longQuote? (quote.text ++ tail) = some quote := longQuote_text tail
          rw [text_eq] at long
          exact Option.some_ne_none _ (long.symm.trans short)
        rw [if_pos (by simp), run_one_mark, run_two_other third]
      · have others : '\n' ∉ more := fun member => oneLine (List.mem_cons_of_mem _ member)
        rw [if_neg (by simpa using second), run_one_other second, run_short _ _ others]
        cases closing? quote.mark (d == '\\') more with
        | none => rfl
        | some further => rfl

end marks

end Quoting

section line

theorem indentedCodeFrom_skip (opened : Option LongQuote) (s : List Char) : ∀ skip,
    indentedCodeFrom opened skip s = indentedCode opened (s.drop skip) := by
  induction s with
  | nil =>
      intro skip
      cases skip <;> rfl
  | cons c rest ih =>
      intro skip
      cases skip with
      | zero => rfl
      | succ skip => rw [indentedCodeFrom, ih, List.drop_succ_cons]

variable {quote : LongQuote} {c : Char} {rest : List Char}

theorem indentedCode_inside (apart : quote.text.isPrefixOf (c :: rest) = false) :
    indentedCode (some quote) (c :: rest) = indentedCode (some quote) rest := by
  rw [indentedCode, indentedCodeFrom]
  simp only [apart, Bool.false_eq_true, if_false]
  rfl

theorem indentedCode_closes (rest : List Char) :
    indentedCode (some quote) (quote.text ++ rest) = writeLiteral (indentedCode none rest) := by
  cases quote <;> simp [indentedCode, indentedCodeFrom, LongQuote.text, List.isPrefixOf, writeLiteral]

theorem indentedCode_comment (rest : List Char) : indentedCode none ('#' :: rest) = ([], none) := rfl

theorem indentedCode_opens (rest : List Char) :
    indentedCode none (quote.text ++ rest) = indentedCode (some quote) rest := by
  have long : longQuote? (quote.text ++ rest) = some quote := Quoting.longQuote_text rest
  have hash : (quote.mark == '#') = false := by simpa using Quoting.mark_ne_hash
  rw [Quoting.text_eq] at long ⊢
  rw [List.cons_append] at long ⊢
  rw [indentedCode, indentedCodeFrom, hash, long]
  rfl

theorem indentedCode_plain (plain : LongQuote.of? c = none) (other : c ≠ '#') :
    indentedCode none (c :: rest) = (c :: (indentedCode none rest).1, (indentedCode none rest).2) := by
  have quotes : (c == doubleQuote || c == singleQuote) = false := by
    rw [LongQuote.of?] at plain
    split at plain
    · cases plain
    · split at plain
      · cases plain
      · simp_all
  rw [indentedCode, indentedCodeFrom, if_neg (by simpa using other), Quoting.longQuote_none plain]
  simp only [quotes, Bool.false_eq_true, if_false]
  rfl

theorem quotedBy_match (rest : List Char) :
    ((quotedBy quote.mark).matchAt? [] (quote.mark :: rest)).map (·.rest) = closing? quote.mark false rest := by
  have quoted : isQuote quote.mark = true := Quoting.isQuote_mark
  have found := congrArg List.head? (quotedBy_places quoted { behind := [], ahead := quote.mark :: rest })
  rw [List.head?_map] at found
  rw [Pattern.matchAt?, Option.map_map]
  refine found.trans ?_
  simp only [beq_self_eq_true, if_true]
  cases closing? quote.mark false rest <;> rfl

theorem indentedCode_short (short : longQuote? (quote.mark :: rest) = none) :
    indentedCode none (quote.mark :: rest) =
      match closing? quote.mark false rest with
      | some further => writeLiteral (indentedCode none further)
      | none => (emptyLiteral, none) := by
  have quotes : (quote.mark == doubleQuote || quote.mark == singleQuote) = true := by cases quote <;> decide
  have same : ((quotedBy quote.mark).matchAt? [] (quote.mark :: rest)).map (·.rest) = _ := quotedBy_match rest
  rw [indentedCode, indentedCodeFrom, if_neg (by simpa using Quoting.mark_ne_hash), short]
  simp only [quotes, if_true]
  cases matched : (quotedBy quote.mark).matchAt? [] (quote.mark :: rest) with
  | none =>
      rw [matched] at same
      rw [← same]
      rfl
  | some found =>
      have closes : closing? quote.mark false rest = some found.rest := by
        rw [← same, matched]
        rfl
      obtain ⟨body, split, _⟩ := closing_split rest closes
      have parts := congrArg List.length (Pattern.matchAt_text matched)
      have lengths := congrArg List.length split
      simp only [List.length_append, List.length_cons] at parts lengths
      have skipped : rest.drop (found.text.length - 1) = found.rest := by
        have read : found.text.length - 1 = (body ++ [quote.mark]).length := by
          rw [List.length_append, List.length_singleton]
          omega
        have whole : rest = body ++ [quote.mark] ++ found.rest := by
          rw [split, List.append_assoc, List.singleton_append]
        rw [read, whole, List.drop_left]
      rw [closes]
      dsimp only
      rw [indentedCodeFrom_skip, skipped]
      rfl

def AgreeBehind (raw : List Char) : Prop :=
  ∀ front {rest}, raw = front ++ rest → front ≠ [] →
    ∀ opened, indentedCode opened rest = (Quoting.ofOpened opened).run rest

theorem AgreeBehind.long {raw : List Char} (behind : AgreeBehind raw) :
    indentedCode (some quote) raw = (Quoting.long quote 0).run raw := by
  cases raw with
  | nil => rfl
  | cons c rest =>
      cases closes : quote.text.isPrefixOf (c :: rest) with
      | false =>
          have step := behind [c] rfl (by simp) (some quote)
          rw [indentedCode_inside closes, step]
          exact (Quoting.run_long_step closes).symm
      | true =>
          obtain ⟨more, split⟩ := List.isPrefixOf_iff_prefix.mp closes
          have further := behind quote.text split.symm (by simp [Quoting.text_eq]) none
          rw [← split, indentedCode_closes, further]
          exact (Quoting.run_closes more).symm

theorem AgreeBehind.mark (behind : AgreeBehind (quote.mark :: rest)) (oneLine : '\n' ∉ rest) :
    indentedCode none (quote.mark :: rest) = Quoting.code.run (quote.mark :: rest) := by
  cases long : longQuote? (quote.mark :: rest) with
  | some other =>
      obtain ⟨more, split⟩ := Quoting.longQuote_some long
      have further := behind quote.text split (by simp [Quoting.text_eq]) (some quote)
      rw [split, indentedCode_opens, further]
      exact (Quoting.run_opens more).symm
  | none =>
      rw [indentedCode_short long, Quoting.run_literal long oneLine]
      cases closed : closing? quote.mark false rest with
      | none => rfl
      | some further =>
          obtain ⟨body, split, _⟩ := closing_split rest closed
          have whole : quote.mark :: rest = quote.mark :: (body ++ [quote.mark]) ++ further := by
            rw [split]
            simp
          dsimp only
          rw [behind _ whole (by simp) none]
          rfl

theorem AgreeBehind.code {raw : List Char} (behind : AgreeBehind raw) (oneLine : '\n' ∉ raw) :
    indentedCode none raw = Quoting.code.run raw := by
  cases raw with
  | nil => rfl
  | cons c rest =>
      by_cases hash : c = '#'
      · rw [hash, indentedCode_comment]
        exact (Quoting.run_code_hash rest).symm
      cases quoted : LongQuote.of? c with
      | none =>
          have step := behind [c] rfl (by simp) none
          rw [indentedCode_plain quoted hash, step]
          exact (Quoting.run_code_plain quoted hash rest).symm
      | some quote =>
          obtain rfl := Quoting.mark_of quoted
          exact behind.mark fun member => oneLine (List.mem_cons_of_mem _ member)

/-- The code of a line as it is found with looking ahead is what is written without. -/
theorem indentedCode_eq (opened : Option LongQuote) {raw : List Char} (oneLine : '\n' ∉ raw) :
    indentedCode opened raw = (Quoting.ofOpened opened).run raw := by
  -- With looking ahead a whole literal is skipped at once, so the induction is on the length.
  induction length : raw.length using Nat.strongRecOn generalizing raw opened with
  | ind n ih =>
    subst length
    have behind : AgreeBehind raw := by
      rintro front rest rfl given opened
      have positive : 0 < front.length := List.length_pos_iff.mpr given
      refine ih rest.length ?_ opened (fun member => oneLine (List.mem_append_right _ member)) rfl
      rw [List.length_append]
      omega
    cases opened with
    | some quote => exact behind.long
    | none => exact behind.code oneLine

end line

end FlowAtlas.Extraction
