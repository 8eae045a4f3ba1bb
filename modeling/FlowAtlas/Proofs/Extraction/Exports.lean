import FlowAtlas.Proofs.Extraction.Declared
import FlowAtlas.Proofs.Extraction.Shorthand

namespace FlowAtlas.Extraction

open Pattern

section words

def HasWord (word s : List Char) : Prop :=
  ∃ front back, s = front ++ (word ++ back) ∧ front.getLast?.any Text.isWord = false ∧
    back.head?.any Text.isWord = false

def ShowsExport (code : List Char) : Prop := HasWord "export".toList code ∨ HasWord "exports".toList code

/-- The first word goes on behind the word that exports, or a name goes on behind the one that holds the exports. -/
def Overruns (code : List Char) : Prop :=
  (∃ c rest, Text.isWord c = true ∧ code = "export".toList ++ c :: rest) ∨
    ∃ front c rest, Text.isWord c = true ∧ code = front ++ ("module.exports".toList ++ c :: rest)

theorem goes_cases (rest : List Char) :
    (∃ c more, Text.isWord c = true ∧ rest = c :: more) ∨ rest.head?.any Text.isWord = false := by
  rcases rest with _ | ⟨c, more⟩
  · exact Or.inr rfl
  · cases word : Text.isWord c with
    | true => exact Or.inl ⟨c, more, word, rfl⟩
    | false => exact Or.inr (by simp [word])

theorem hasExports_member (front rest : List Char) (stops : rest.head?.any Text.isWord = false) :
    ShowsExport (front ++ ("module.exports".toList ++ rest)) := by
  refine Or.inr ⟨front ++ "module.".toList, rest, by simp, ?_, stops⟩
  have point : (front ++ "module.".toList).getLast? = some '.' := by
    rw [List.getLast?_append]
    rfl
  rw [point]
  decide

theorem shows_of_exportLine {code : List Char} (exports : Brace.isExportLine code = true) :
    ShowsExport code ∨ Overruns code := by
  rcases Bool.or_eq_true_iff.mp exports with starts | holds
  · obtain ⟨rest, rfl⟩ := Text.startsWith_iff.mp starts
    rcases goes_cases rest with ⟨c, more, word, rfl⟩ | stops
    · exact Or.inr (Or.inl ⟨c, more, word, rfl⟩)
    · exact Or.inl (Or.inl ⟨[], rest, rfl, rfl, stops⟩)
  · obtain ⟨front, rest, rfl⟩ := (Text.contains_iff code).mp holds
    rcases goes_cases rest with ⟨c, more, word, rfl⟩ | stops
    · exact Or.inr (Or.inr ⟨front, c, more, word, rfl⟩)
    · exact Or.inl (hasExports_member front rest stops)

theorem exportLine_of_overruns {code : List Char} (overruns : Overruns code) : Brace.isExportLine code = true := by
  rcases overruns with ⟨c, rest, _, same⟩ | ⟨front, c, rest, _, same⟩
  · exact Bool.or_eq_true_iff.mpr (Or.inl (Text.startsWith_iff.mpr ⟨c :: rest, same⟩))
  · exact Bool.or_eq_true_iff.mpr (Or.inr ((Text.contains_iff code).mpr ⟨front, c :: rest, same⟩))

end words

section forms

variable {code : List Char}

theorem declaredRoutine_mem {forms : List RoutineForm} {form : RoutineForm} {found : Match}
    (declared : declaredRoutine? forms code = some (form, found)) : form ∈ forms := by
  obtain ⟨tried, member, matched⟩ := List.exists_of_findSome?_eq_some declared
  obtain ⟨_, _, same⟩ := Option.map_eq_some_iff.mp matched
  exact (Prod.mk.inj same).1 ▸ member

theorem member_shows {found : Match} (searched : Brace.exportedMember.pattern.search? code = some found) :
    ShowsExport code := by
  let front := [optional (literal "module."), literal "exports."]
  let back := [blanks, Pattern.char '=', blanks, optional (keyword "async"),
    anyOf [seq (literal "function") wordEdge, inOrder [parentheses, blanks, literal "=>"],
      inOrder [word, blanks, literal "=>"]]]
  have ungrouped : (inOrder back).Ungrouped := by
    simp [back, Ungrouped, Each, blanks, blanks1, Pattern.char, keyword, parentheses, word]
  have anchored : (inOrder (front ++ group .subject word :: back)).matchAt? [] code = some found :=
    (search_anchored _ code).symm.trans searched
  obtain ⟨lead, _, led, _, _, _, rfl⟩ := matchAt_spells ungrouped anchored
  generalize found.subject ++ found.afterSubject = rest
  simp only [front, spells_inOrder_cons, spells_inOrder_nil, spells_optional, spells_literal] at led
  obtain ⟨module, _, module_eq, ⟨_, _, rfl, rfl, rfl⟩, rfl⟩ := led
  have stops : ('.' :: rest).head?.any Text.isWord = false := by
    rw [List.head?_cons, Option.any_some]
    decide
  rcases module_eq with rfl | rfl
  · exact hasExports_member [] ('.' :: rest) stops
  · exact Or.inr ⟨[], '.' :: rest, rfl, rfl, stops⟩

theorem declares_exported {routine : Routine} (declares : Declares .literal code routine) :
    (routine.exported = true → ShowsExport code ∨ Overruns code) ∧ (Overruns code → routine.exported = true) := by
  obtain ⟨kind, isAsync, receiver, behind, declared⟩ := declares
  rw [Braces.declaration?] at declared
  split at declared
  · cases declared
  · obtain ⟨⟨form, found⟩, matched, same⟩ := Option.map_eq_some_iff.mp declared
    injection (Prod.mk.inj same).1 with _ _ _ flag _
    rw [← flag, Bool.or_eq_true]
    refine ⟨?_, fun overruns => Or.inr (exportLine_of_overruns overruns)⟩
    rintro (marked | line)
    · have own : form = Brace.exportedMember := by
        have member : form ∈ Brace.routineForms := declaredRoutine_mem matched
        simp only [Brace.routineForms, List.mem_cons, List.not_mem_nil, or_false] at member
        rcases member with rfl | rfl | rfl | rfl | rfl
        · cases marked
        · cases marked
        · cases marked
        · cases marked
        · rfl
      exact Or.inl (member_shows (own ▸ declared_search (declaredRoutine_form matched)))
    · exact shows_of_exportLine line

theorem declares_class_exported {opened : OpenedClass} (declares : DeclaresClass .literal code opened) :
    (opened.exported = true → ShowsExport code ∨ Overruns code) ∧ (Overruns code → opened.exported = true) := by
  obtain ⟨behind, declared⟩ := declares
  rw [Braces.declaration?] at declared
  split at declared
  · injection (Prod.mk.inj (Option.some.inj declared)).1 with _ flag
    rw [← flag]
    exact ⟨shows_of_exportLine, exportLine_of_overruns⟩
  · obtain ⟨_, _, same⟩ := Option.map_eq_some_iff.mp declared
    cases (Prod.mk.inj same).1

end forms

section lists

/-- What a list of exported names begins with. -/
def IsListLead (lead : List Char) : Prop :=
  ∃ space, IsBlankText space ∧
    (lead = "export".toList ++ space ∨ ∃ gap, IsBlankText gap ∧ lead = "module.exports".toList ++ (gap ++ '=' :: space))

def Lists (raw : List Char) (name : String) : Prop :=
  ∃ lead inner rest, IsListLead lead ∧ '\x7d' ∉ inner ∧ raw = lead ++ '\x7b' :: (inner ++ '\x7d' :: rest) ∧
    ∃ item ∈ Text.splitWhere (· == ',') inner, ∃ tail, Text.trim item = name.toList ++ tail ∧
      ∀ c ∈ tail.head?, c = ' ' ∨ c = ':'

theorem exportedName_tail (item : List Char) :
    ∃ tail, Text.trim item = Brace.exportedName item ++ tail ∧ ∀ c ∈ tail.head?, c = ' ' ∨ c = ':' := by
  let inside : Char → Bool := fun c => decide ((!(c == ':')) = true ∧ (!(c == ' ')) = true)
  have named : Brace.exportedName item = (Text.trim item).takeWhile inside := by
    rw [Brace.exportedName, Text.upTo, Text.upTo, List.takeWhile_takeWhile]
  refine ⟨(Text.trim item).dropWhile inside, ?_, ?_⟩
  · rw [named, List.takeWhile_append_dropWhile]
  · intro c first
    have stops := List.head?_dropWhile_not inside (Text.trim item)
    rw [first] at stops
    by_cases colon : c = ':'
    · exact Or.inr colon
    · exact Or.inl (by simpa [inside, colon] using stops)

theorem lists_of_exportedNames {raw : List Char} {name : String} (member : name ∈ Brace.exportedNames raw) :
    Lists raw name := by
  rw [Brace.exportedNames] at member
  split at member
  · rename_i found searched
    let front := [either (inOrder [literal "module.exports", blanks, Pattern.char '=']) (literal "export"), blanks,
      Pattern.char '\x7b']
    let back := [Pattern.char '\x7d']
    have ungrouped : (inOrder back).Ungrouped := trivial
    have anchored : (inOrder (front ++ group .subject (run (· != '\x7d')) :: back)).matchAt? [] raw = some found :=
      (search_anchored _ raw).symm.trans searched
    obtain ⟨lead, tail, led, inner, closed, after, whole⟩ := matchAt_spells ungrouped anchored
    obtain rfl := spells_char.mp closed
    obtain ⟨opener, _, opens, ⟨space, _, blank, brace, rfl⟩, rfl⟩ := led
    obtain rfl := spells_char.mp brace
    obtain ⟨chars, kept, rfl⟩ := List.mem_map.mp member
    obtain ⟨item, among, rfl⟩ := List.mem_map.mp (List.mem_filter.mp kept).1
    obtain ⟨rest, cut, stops⟩ := exportedName_tail item
    refine ⟨opener ++ space, found.subject, found.rest, ⟨space, blank, ?_⟩, ?_, ?_, item, among, rest, ?_, stops⟩
    · rcases opens with ⟨_, _, words, ⟨gap, _, spaced, equals, rfl⟩, rfl⟩ | words
      · obtain rfl := spells_literal.mp words
        obtain rfl := spells_char.mp equals
        exact Or.inr ⟨gap, spaced, by simp⟩
      · exact Or.inl (by rw [spells_literal.mp words])
    · intro brace
      exact absurd (inner _ brace) (by decide)
    · rw [after] at whole
      simpa using whole
    · rwa [String.toList_ofList]
  · cases member

end lists

section runs

variable {scan : BracedScan} {raw : List Char} {line : Nat}

theorem declareIf_names (findings : Findings) (declared : Option (Declaration × List Char)) (line depth : Nat) :
    (findings.declareIf declared line depth).exportedNames = findings.exportedNames ∧
      (findings.declareIf declared line depth).publicNames = findings.publicNames := by
  rcases declared with _ | ⟨_ | _, behind⟩ <;> exact ⟨rfl, rfl⟩

theorem recordLine_names (findings : Findings) (code callText raw : List Char) (line : Nat) :
    (findings.recordLine code callText raw line).exportedNames = findings.exportedNames ∧
      (findings.recordLine code callText raw line).publicNames = findings.publicNames := by
  rw [Findings.recordLine]
  split <;> exact ⟨rfl, rfl⟩

theorem dropWaiting_names (findings : Findings) (previous code : List Char) :
    (findings.dropWaiting previous code).exportedNames = findings.exportedNames ∧
      (findings.dropWaiting previous code).publicNames = findings.publicNames := by
  rw [Findings.dropWaiting]
  split <;> exact ⟨rfl, rfl⟩

theorem stepListed_names (scan : BracedScan) (code : List Char) (listed : List String) (line : Nat) :
    (scan.stepListed .literal code listed line).findings.exportedNames = scan.findings.exportedNames ++ listed ∧
      (scan.stepListed .literal code listed line).findings.publicNames = scan.findings.publicNames := by
  let noted := (scan.findings.dropWaiting scan.previous code).addExported listed
  let declared := Braces.literal.declaration? code
  have waiting := dropWaiting_names scan.findings scan.previous code
  have opened := declareIf_names noted declared line scan.depth
  have recorded := recordLine_names (noted.declareIf declared line scan.depth) code (callText declared code) [] line
  constructor
  · calc (scan.stepListed .literal code listed line).findings.exportedNames
      _ = noted.exportedNames := recorded.1.trans opened.1
      _ = scan.findings.exportedNames ++ listed := congrArg (· ++ listed) waiting.1
  · exact (recorded.2.trans opened.2).trans waiting.2

theorem step_names (scan : BracedScan) (raw : List Char) (line : Nat) :
    (scan.step .literal raw line).findings.publicNames = scan.findings.publicNames ∧
      ∀ name ∈ (scan.step .literal raw line).findings.exportedNames,
        name ∈ scan.findings.exportedNames ∨ name ∈ Brace.exportedNames (Text.trim raw) := by
  let marks := Braces.literal.marks raw
  let commented := { scan.unquoted with inComment := (bracedCode scan.inComment raw).2 }
  have read : scan.unquoted.stepRead .literal (bracedCode scan.inComment raw) marks line =
      if (Text.trim (bracedCode scan.inComment raw).1).isEmpty then commented
      else commented.stepListed .literal (Text.trim (bracedCode scan.inComment raw).1) marks.listed line := rfl
  change (scan.step .literal raw line).unquoted.findings.publicNames = scan.findings.publicNames ∧
    ∀ name ∈ (scan.step .literal raw line).unquoted.findings.exportedNames, _
  rw [step_unquoted, read]
  split
  · exact ⟨rfl, fun _ old => Or.inl old⟩
  · obtain ⟨names, publics⟩ :=
      stepListed_names commented (Text.trim (bracedCode scan.inComment raw).1) marks.listed line
    rw [names, publics]
    exact ⟨rfl, fun _ member => List.mem_append.mp member⟩

variable {lines : List (List Char)} {count : Nat}

theorem after_names (path : String) (bound : count ≤ lines.length) :
    (bracedAfter .literal path lines count).findings.publicNames = none ∧
      ∀ name ∈ (bracedAfter .literal path lines count).findings.exportedNames,
        ∃ raw ∈ lines, name ∈ Brace.exportedNames (Text.trim raw) := by
  induction count with
  | zero => simp [bracedAfter, scanBraced]
  | succ count ih =>
      obtain ⟨publics, names⟩ := ih (Nat.le_of_lt bound)
      rw [bracedAfter_succ .literal path bound]
      obtain ⟨kept, added⟩ := step_names (bracedAfter .literal path lines count) lines[count] (count + 1)
      refine ⟨kept.trans publics, ?_⟩
      intro name member
      rcases added name member with old | new
      · exact names name old
      · exact ⟨lines[count], List.getElem_mem bound, new⟩

end runs

/-- What the export flag of a name says that is declared on a line of code. -/
structure ExportTold (lines : List (List Char)) (code : List Char) (name : String) (exported : Bool) : Prop where
  shown : exported = true → ShowsExport code ∨ (∃ raw ∈ lines, Lists (Text.trim raw) name) ∨ Overruns code
  overrun : Overruns code → exported = true

theorem exportTold {lines : List (List Char)} {code : List Char} {name : String} {own : Bool} {names : List String}
    (flag : (own = true → ShowsExport code ∨ Overruns code) ∧ (Overruns code → own = true))
    (listed : ∀ name ∈ names, ∃ raw ∈ lines, name ∈ Brace.exportedNames (Text.trim raw)) :
    ExportTold lines code name (own || names.contains name) := by
  refine ⟨?_, fun overruns => Bool.or_eq_true_iff.mpr (Or.inl (flag.2 overruns))⟩
  intro exported
  rcases Bool.or_eq_true_iff.mp exported with line | list
  · exact (flag.1 line).imp_right Or.inr
  · obtain ⟨raw, member, names⟩ := listed name (List.contains_iff_mem.mp list)
    exact Or.inr (Or.inl ⟨raw, member, lists_of_exportedNames names⟩)

/-- What is exported has the word in its line or stands in a list of exported names, unless a longer word on its line
is taken for the one that exports, as every such word is. -/
theorem ofText_exported (path text : String) :
    let lines := Text.lines text.toList
    let found := ofText path text .brace
    (∀ routine ∈ found.routines, ∃ count < lines.length, routine.line = (count + 1 : Nat) ∧
      ExportTold lines (codeAt .literal path lines count) routine.name routine.exported) ∧
    ∀ opened ∈ found.classes, ∃ count < lines.length, opened.line = (count + 1 : Nat) ∧
      ExportTold lines (codeAt .literal path lines count) opened.name opened.exported := by
  intro lines found
  let scan := bracedAfter .literal path lines lines.length
  have findings : findingsOf path .brace lines = scan.findings := findingsOf_braces .literal path lines
  obtain ⟨publics, listed⟩ := after_names path (Nat.le_refl lines.length)
  constructor
  · intro routine member
    have held : routine ∈ (findingsOf path .brace lines).finish.routines := member
    rw [findings] at held
    obtain ⟨before, among, rfl⟩ := List.mem_map.mp held
    obtain ⟨count, bound, lined, declares⟩ := after_declares (Nat.le_refl _) before among
    have flag : scan.findings.isExported before =
        (before.exported || scan.findings.exportedNames.contains before.name) := by
      rw [Findings.isExported, publics]
    refine ⟨count, bound, lined, ?_⟩
    change ExportTold lines _ before.name (scan.findings.isExported before)
    rw [flag]
    exact exportTold (declares_exported declares) listed
  · intro opened member
    have held : opened ∈ (findingsOf path .brace lines).finish.classes := member
    rw [findings] at held
    obtain ⟨before, among, rfl⟩ := List.mem_map.mp held
    obtain ⟨count, bound, lined, declares⟩ := after_declares_class (Nat.le_refl _) before among
    have line : (before.line : Int) = (count + 1 : Nat) := congrArg Nat.cast lined
    exact ⟨count, bound, line, exportTold (declares_class_exported declares) listed⟩

example : ((ofText "a.js" "class A \x7b\n  exportData() \x7b\n  \x7d\n\x7d\n" .brace).routines.map fun routine =>
    (routine.name, routine.exported)) = [("exportData", true)] := by decide +kernel

end FlowAtlas.Extraction
