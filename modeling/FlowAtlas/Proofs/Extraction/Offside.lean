import FlowAtlas.Extraction.Indented
import Mathlib.Data.List.Nodup

/-! The offside rule of an indented file: which lines begin statements, which declarations are open at a line, and
which routine the line belongs to. -/

namespace FlowAtlas.Extraction

/-- What a line leaves to those behind it: a long literal, open brackets, a backslash at the end of its code. -/
structure Carried where
  opened : Option LongQuote := none
  brackets : Nat := 0
  continued : Bool := false

structure CodeLine where
  number : Nat
  raw : List Char
  code : List Char
  statement : Bool
  deriving DecidableEq

namespace Carried

def codeOf (carried : Carried) (raw : List Char) : List Char := Text.trim (indentedCode carried.opened raw).1

def line (carried : Carried) (number : Nat) (raw : List Char) : CodeLine :=
  { number, raw, code := carried.codeOf raw
    statement := carried.opened.isNone && carried.brackets == 0 && !carried.continued }

def next (carried : Carried) (raw : List Char) : Carried :=
  let code := carried.codeOf raw
  let opened := (indentedCode carried.opened raw).2
  if code.isEmpty then { carried with opened }
  else
    { opened
      brackets := carried.brackets + countOf ['(', '[', '\x7b'] code - countOf [')', ']', '\x7d'] code
      continued := Text.endsWith code "\\" }

end Carried

def codeLines (carried : Carried) : Nat → List (List Char) → List CodeLine
  | _, [] => []
  | number, raw :: rest =>
    (if (carried.codeOf raw).isEmpty then [] else [carried.line number raw]) ++
      codeLines (carried.next raw) (number + 1) rest

namespace CodeLine

def indent (line : CodeLine) : Nat := Text.indentation line.raw

def declared? (line : CodeLine) : Option (Declaration × List Char) :=
  if line.statement then Indent.declaration? line.code line.indent else none

def className? (line : CodeLine) : Option String :=
  match line.declared? with
  | some (.classBody name _, _) => some name
  | _ => none

def routineName? (line : CodeLine) : Option String :=
  match line.declared? with
  | some (.routine name _ _ _ _, _) => some name
  | _ => none

def calls (line : CodeLine) : List CallSite :=
  (calledNames (callText line.declared? line.code)).map fun callee => ⟨callee, line.number⟩

def decisions (line : CodeLine) (file owner : String) : List Decision :=
  (Findings.decisionOf? file owner line.code line.raw line.number).toList

theorem declared_of_routineName {line : CodeLine} (named : line.routineName?.isSome) :
    line.declared?.isSome := by
  rw [routineName?] at named
  split at named
  · rename_i declared
    simp [declared]
  · cases named

theorem routineName_of_className {line : CodeLine} {name : String} (named : line.className? = some name) :
    line.routineName? = none := by
  rw [className?] at named
  split at named
  · rename_i declared
    simp [routineName?, declared]
  · cases named

theorem className_of_routineName {line : CodeLine} (named : line.routineName?.isSome) :
    line.className? = none := by
  rw [routineName?] at named
  split at named
  · rename_i declared
    simp [className?, declared]
  · cases named

theorem statement_of_declared {line : CodeLine} (declared : line.declared?.isSome) :
    line.statement = true := by
  rw [declared?] at declared
  split at declared
  · assumption
  · cases declared

end CodeLine

variable (codes : List CodeLine) (new : CodeLine)

/-- What is declared on one line is open at another: each statement behind it up to there is indented deeper. -/
def OpenAt (declared line : CodeLine) : Prop :=
  ∀ other ∈ codes, other.statement = true → declared.number < other.number → other.number ≤ line.number →
    declared.indent < other.indent

instance (declared line : CodeLine) : Decidable (OpenAt codes declared line) :=
  inferInstanceAs (Decidable (∀ other ∈ codes, _))

/-- The latest routine that is declared up to a line and open at it. -/
def routineAt? (line : CodeLine) : Option CodeLine :=
  (codes.filter fun declared =>
    declared.routineName?.isSome && (declared.number ≤ line.number && OpenAt codes declared line)).getLast?

/-- The latest scope that is declared on an earlier line and open at a line. -/
def scopeAround? (line : CodeLine) : Option CodeLine :=
  (codes.filter fun declared =>
    declared.declared?.isSome && (declared.number < line.number && OpenAt codes declared line)).getLast?

def linesOf (declared : CodeLine) : List CodeLine :=
  codes.filter fun line => routineAt? codes line == some declared

def routineLines : List CodeLine := codes.filter fun line => line.routineName?.isSome

def StillOpen (declared : CodeLine) : Prop :=
  ∀ other ∈ codes, other.statement = true → declared.number < other.number → declared.indent < other.indent

instance (declared : CodeLine) : Decidable (StillOpen codes declared) :=
  inferInstanceAs (Decidable (∀ other ∈ codes, _))

def openLines : List CodeLine :=
  (codes.filter fun declared => declared.declared?.isSome && StillOpen codes declared).reverse

section next

variable {codes new} {declared line : CodeLine} (later : ∀ old ∈ codes, old.number < new.number)

include later

theorem new_notMem : new ∉ codes := fun held => Nat.lt_irrefl _ (later new held)

theorem number_le_new : ∀ other ∈ codes ++ [new], other.number ≤ new.number := by
  intro other among
  rcases List.mem_append.mp among with old | last
  · exact Nat.le_of_lt (later other old)
  · exact Nat.le_of_eq (congrArg CodeLine.number (List.mem_singleton.mp last))

theorem stillOpen_append (held : declared ∈ codes) :
    StillOpen (codes ++ [new]) declared ↔
      (new.statement = true → declared.indent < new.indent) ∧ StillOpen codes declared := by
  constructor
  · intro still
    constructor
    · intro statement
      exact still new (by simp) statement (later declared held)
    · intro other among
      exact still other (List.mem_append_left _ among)
  · rintro ⟨deeper, still⟩ other among statement behind
    rcases List.mem_append.mp among with old | last
    · exact still other old statement behind
    · rw [List.mem_singleton.mp last] at statement ⊢
      exact deeper statement

theorem stillOpen_new : StillOpen (codes ++ [new]) new := by
  intro other among _ behind
  rcases List.mem_append.mp among with old | last
  · exact absurd (later other old) (Nat.lt_asymm behind)
  · rw [List.mem_singleton.mp last] at behind
    exact absurd behind (Nat.lt_irrefl _)

theorem openAt_new : OpenAt (codes ++ [new]) declared new ↔ StillOpen (codes ++ [new]) declared := by
  constructor
  · intro opened other among statement behind
    exact opened other among statement behind (number_le_new later other among)
  · exact fun still other among statement behind _ => still other among statement behind

theorem openAt_append (held : line ∈ codes) :
    OpenAt (codes ++ [new]) declared line ↔ OpenAt codes declared line := by
  constructor
  · exact fun opened other among => opened other (List.mem_append_left _ among)
  · intro opened other among statement behind within
    rcases List.mem_append.mp among with old | last
    · exact opened other old statement behind within
    · rw [List.mem_singleton.mp last] at within
      exact absurd (later line held) (Nat.not_lt.mpr within)

theorem routineAt_append (held : line ∈ codes) :
    routineAt? (codes ++ [new]) line = routineAt? codes line := by
  have beyond : ¬ new.number ≤ line.number := Nat.not_le.mpr (later line held)
  simp only [routineAt?, List.filter_append, openAt_append later held]
  simp [beyond]

theorem scopeAround_append (held : line ∈ codes) :
    scopeAround? (codes ++ [new]) line = scopeAround? codes line := by
  have beyond : ¬ new.number < line.number := Nat.lt_asymm (later line held)
  simp only [scopeAround?, List.filter_append, openAt_append later held]
  simp [beyond]

theorem openLines_append :
    openLines (codes ++ [new]) = (if new.declared?.isSome then [new] else []) ++
      (openLines codes).filter fun declared => !new.statement || declared.indent < new.indent := by
  have old : codes.filter (fun declared => declared.declared?.isSome && StillOpen (codes ++ [new]) declared) =
      (codes.filter fun declared => declared.declared?.isSome && StillOpen codes declared).filter
        fun declared => !new.statement || declared.indent < new.indent := by
    rw [List.filter_filter]
    refine List.filter_congr fun declared held => ?_
    rw [Bool.eq_iff_iff]
    simp only [Bool.and_eq_true, Bool.or_eq_true, Bool.not_eq_true', decide_eq_true_eq, stillOpen_append later held]
    cases new.statement
    · simp
    · simp only [Bool.true_eq_false, false_or, forall_const]
      exact and_left_comm
  have last : [new].filter (fun declared => declared.declared?.isSome && StillOpen (codes ++ [new]) declared) =
      if new.declared?.isSome then [new] else [] := by
    simp [List.filter_cons, stillOpen_new later]
  rw [openLines, List.filter_append, old, last, List.reverse_append, openLines, List.filter_reverse]
  split <;> rfl

theorem routineAt_new :
    routineAt? (codes ++ [new]) new =
      ((openLines (codes ++ [new])).filter fun declared => declared.routineName?.isSome).head? := by
  rw [openLines, List.filter_reverse, List.head?_reverse, List.filter_filter, routineAt?]
  congr 1
  refine List.filter_congr fun declared held => ?_
  have within : declared.number ≤ new.number := number_le_new later declared held
  rw [Bool.eq_iff_iff]
  simp only [Bool.and_eq_true, decide_eq_true_eq, openAt_new later, within, true_and]
  constructor
  · exact fun ⟨named, still⟩ => ⟨named, CodeLine.declared_of_routineName named, still⟩
  · exact fun ⟨named, _, still⟩ => ⟨named, still⟩

theorem scopeAround_new (statement : new.statement = true) :
    scopeAround? (codes ++ [new]) new =
      ((openLines codes).filter fun declared => declared.indent < new.indent).head? := by
  have self : ¬ new.number < new.number := Nat.lt_irrefl _
  rw [openLines, List.filter_reverse, List.head?_reverse, List.filter_filter, scopeAround?, List.filter_append]
  simp only [List.filter_cons, List.filter_nil, self, decide_false, Bool.false_and, Bool.and_false,
    Bool.false_eq_true, if_false, List.append_nil]
  congr 1
  refine List.filter_congr fun declared held => ?_
  rw [Bool.eq_iff_iff]
  simp only [Bool.and_eq_true, decide_eq_true_eq, openAt_new later, stillOpen_append later held, later declared held,
    statement, true_and, forall_const]
  exact and_left_comm

theorem linesOf_append (declared : CodeLine) :
    linesOf (codes ++ [new]) declared =
      linesOf codes declared ++ if routineAt? (codes ++ [new]) new = some declared then [new] else [] := by
  have old : codes.filter (fun line => routineAt? (codes ++ [new]) line == some declared) =
      linesOf codes declared := by
    refine List.filter_congr fun line held => ?_
    rw [routineAt_append later held]
  rw [linesOf, List.filter_append, old]
  congr 1
  simp [List.filter_cons]

theorem linesOf_new : linesOf codes new = [] := by
  rw [linesOf, List.filter_eq_nil_iff]
  intro line _ same
  have held := List.mem_of_getLast? (beq_iff_eq.mp same)
  exact new_notMem later (List.mem_filter.mp held).1

end next

end FlowAtlas.Extraction
