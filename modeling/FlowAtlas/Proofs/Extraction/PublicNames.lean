import FlowAtlas.Proofs.Extraction.Comments
import FlowAtlas.Proofs.Extraction.Exports
import FlowAtlas.Proofs.Extraction.Hidden
import FlowAtlas.Proofs.Extraction.QuotedNames

namespace FlowAtlas.Extraction

open Pattern

section heads

def IsListHead (head : List Char) : Prop :=
  ∃ gap typing mark, IsBlankText gap ∧ (typing = [] ∨ ∃ type, '=' ∉ type ∧ typing = ':' :: type) ∧
    mark ∈ [[], ['+']] ∧ head = "__all__".toList ++ (gap ++ (typing ++ (mark ++ ['='])))

def BeginsList (s : List Char) : Prop := ∃ head rest, IsListHead head ∧ s = head ++ rest

def listHead : List Pattern :=
  [literal "__all__", blanks, optional (seq (char ':') (run (noneOf "="))), optional (char '+'), char '=']

theorem publicList_eq : Indent.publicList = seq atStart (inOrder listHead) := rfl

theorem spells_listHead {s : List Char} : (inOrder listHead).Spells s ↔ IsListHead s := by
  have free : ∀ {s : List Char}, (∀ c ∈ s, noneOf "=" c = true) ↔ '=' ∉ s := all_noneOf (by rfl : "=".toList = ['='])
  constructor
  · rintro ⟨_, _, name, ⟨gap, _, blank, ⟨typing, _, typed, ⟨mark, _, marked, equals, rfl⟩, rfl⟩, rfl⟩, rfl⟩
    obtain rfl := spells_literal.mp name
    obtain rfl := spells_char.mp equals
    refine ⟨gap, typing, mark, blank, ?_, ?_, rfl⟩
    · rcases typed with ⟨_, type, colon, plain, rfl⟩ | rfl
      · obtain rfl := spells_char.mp colon
        exact Or.inr ⟨type, free.mp plain, rfl⟩
      · exact Or.inl rfl
    · rcases marked with plus | rfl
      · rw [spells_char.mp plus]
        decide
      · decide
  · rintro ⟨gap, typing, mark, blank, typed, marked, rfl⟩
    have spelled : (optional (seq (Pattern.char ':') (run (noneOf "=")))).Spells typing := by
      rcases typed with rfl | ⟨type, plain, rfl⟩
      · exact Or.inr rfl
      · exact Or.inl ⟨[':'], type, spells_char.mpr rfl, free.mpr plain, rfl⟩
    have signed : (optional (Pattern.char '+')).Spells mark := by
      simpa [or_comm] using marked
    exact ⟨_, _, spells_literal.mpr rfl, ⟨gap, _, blank, ⟨typing, _, spelled,
      ⟨mark, _, signed, spells_char.mpr rfl, rfl⟩, rfl⟩, rfl⟩, rfl⟩

theorem beginsList_iff (s : List Char) : BeginsList s ↔ Indent.publicList.occursIn s = true := by
  have plain : (inOrder listHead).Plain := by simp [listHead, blanks]
  rw [occursIn, publicList_eq, search_anchored, matchAt_isSome]
  constructor
  · rintro ⟨head, rest, isHead, rfl⟩
    let start : Place := { behind := [], ahead := head ++ rest }
    have ahead : start.ahead = head ++ rest := rfl
    obtain ⟨stop, reached, _⟩ := spells_reach plain (spells_listHead.mpr isHead) ahead
    exact ⟨stop, reached⟩
  · rintro ⟨stop, reached⟩
    obtain ⟨head, spelled, apart⟩ := places_spell _ _ _ reached
    exact ⟨head, stop.ahead, spells_listHead.mp spelled, apart.ahead⟩

instance : DecidablePred BeginsList := fun s => decidable_of_iff _ (beginsList_iff s).symm

end heads

section lists

/-- An assignment of names, written over one line or more. -/
structure PublicList where
  head : List Char
  first : Row
  others : List Row
  isHead : IsListHead head
  nothing : NamesNothing head

namespace PublicList

def texts (list : PublicList) : List (List Char) := (list.head ++ list.first.text) :: list.others.map Row.text

def names (list : PublicList) : List String := list.first.names ++ list.others.flatMap Row.names

theorem quotedNames_first (list : PublicList) :
    Indent.quotedNames (list.head ++ list.first.text) = list.first.names := by
  obtain ⟨gap, typing, mark, _, _, _, same⟩ := list.isHead
  -- The last character of the head is no quote, so that no name reaches from the head into the first line.
  obtain ⟨front, split⟩ : ∃ front, list.head = front ++ ['='] :=
    ⟨"__all__".toList ++ (gap ++ (typing ++ mark)), by simp [same]⟩
  have nothing : NamesNothing front := by
    rintro name ⟨before, back, first, last, given, letters, same⟩
    exact list.nothing name ⟨before, back ++ ['='], first, last, given, letters, by simp [split, same]⟩
  rw [split, List.append_assoc, quotedNames_eq, List.singleton_append,
    quotedFrom_head nothing (by decide) (by decide), Row.quotedFrom_text]

theorem quotedNames_texts (list : PublicList) : list.texts.flatMap Indent.quotedNames = list.names := by
  have rows : (list.others.map Row.text).flatMap Indent.quotedNames = list.others.flatMap Row.names := by
    rw [List.flatMap_map]
    exact congrArg (list.others.flatMap ·) (funext fun row => row.quotedFrom_text [])
  rw [texts, List.flatMap_cons, quotedNames_first, rows, names]

end PublicList

end lists

section scan

/-- A line has a bracket that closes a list or a tuple, or any other of the same kind. -/
def ClosesList (raw : List Char) : Prop := ']' ∈ raw ∨ ')' ∈ raw

instance : DecidablePred ClosesList := fun raw => inferInstanceAs (Decidable (']' ∈ raw ∨ ')' ∈ raw))

theorem any_closes (raw : List Char) :
    ((Text.trim raw).any fun c => c == ']' || c == ')') = decide (ClosesList raw) := by
  have held : ∀ c, Text.isBlank c = false → (c ∈ Text.trim raw ↔ c ∈ raw) :=
    fun c solid => ⟨fun member => (trim_sublist raw).subset member, mem_trim solid⟩
  have square := held ']' (by decide)
  have round := held ')' (by decide)
  rw [Bool.eq_iff_iff, List.any_eq_true, decide_eq_true_iff, ClosesList, ← square, ← round]
  constructor
  · rintro ⟨c, member, closes⟩
    rcases Bool.or_eq_true_iff.mp closes with same | same
    · exact Or.inl (eq_of_beq same ▸ member)
    · exact Or.inr (eq_of_beq same ▸ member)
  · rintro (member | member)
    · exact ⟨']', member, rfl⟩
    · exact ⟨')', member, rfl⟩

variable {scan : IndentedScan} {raw : List Char}

def IndentedScan.collects (scan : IndentedScan) (raw : List Char) : Bool :=
  scan.inPublicList || (!scan.opened.isSome && Indent.publicList.occursIn (Text.trim raw))

def lineNames (raw : List Char) : List String := Indent.quotedNames (Text.trim raw)

theorem stepCode_public (scan : IndentedScan) (inside : Bool) (code raw : List Char) (line : Nat) :
    (scan.stepCode inside code raw line).findings.publicNames = scan.findings.publicNames ∧
      (scan.stepCode inside code raw line).inPublicList = scan.inPublicList := by
  refine ⟨?_, rfl⟩
  rw [indented_stepCode_eq]
  dsimp only
  rw [(recordLine_names _ _ _ _ _).2]
  split
  · exact (declareIf_names _ _ _ _).2
  · rfl

theorem step_public (scan : IndentedScan) (raw : List Char) (line : Nat) :
    ((scan.step raw line).findings.publicNames, (scan.step raw line).inPublicList) =
      if scan.collects raw then
        (some (scan.findings.publicNames.getD [] ++ lineNames raw), !decide (ClosesList raw))
      else (scan.findings.publicNames, scan.inPublicList) := by
  let read := { scan with opened := (indentedCode scan.opened raw).2 }
  let noted := read.notePublic scan.opened.isSome (Text.trim raw)
  have noted_eq : noted = if scan.collects raw then
      { read with
        findings := scan.findings.addPublic (lineNames raw)
        inPublicList := !((Text.trim raw).any fun c => c == ']' || c == ')') }
      else read := rfl
  have kept : ((scan.step raw line).findings.publicNames, (scan.step raw line).inPublicList) =
      (noted.findings.publicNames, noted.inPublicList) := by
    rw [indented_step_eq]
    dsimp only
    split
    · rfl
    · exact Prod.mk.injEq .. ▸ stepCode_public noted _ _ _ _
  rw [kept, noted_eq, any_closes]
  split <;> rfl

theorem scan_collects (others : List (List Char)) : ∀ {scan : IndentedScan} {raw : List Char} (line : Nat),
    scan.collects raw = true → (∀ inner ∈ (raw :: others).dropLast, ¬ClosesList inner) →
    (scanIndented scan line (raw :: others)).findings.publicNames =
        some (scan.findings.publicNames.getD [] ++ (raw :: others).flatMap lineNames) ∧
      ((∃ last ∈ (raw :: others).getLast?, ClosesList last) →
        (scanIndented scan line (raw :: others)).inPublicList = false) := by
  induction others with
  | nil =>
      intro scan raw line collects _
      obtain ⟨publics, flag⟩ := Prod.mk.inj ((step_public scan raw line).trans (if_pos collects))
      refine ⟨by simpa [scanIndented] using publics, ?_⟩
      rintro ⟨last, same, closes⟩
      obtain rfl : raw = last := by simpa using same
      rw [scanIndented, scanIndented, flag, decide_eq_true closes, Bool.not_true]
  | cons next others ih =>
      intro scan raw line collects inner
      obtain ⟨publics, flag⟩ := Prod.mk.inj ((step_public scan raw line).trans (if_pos collects))
      obtain ⟨first, later⟩ := List.forall_mem_cons.mp inner
      -- The flag is up behind a line without a closing bracket, so the next one counts whatever it begins with.
      have goesOn : (scan.step raw line).collects next = true := by
        rw [IndentedScan.collects, flag, decide_eq_false first, Bool.not_false, Bool.true_or]
      obtain ⟨names, ends⟩ := ih (line + 1) goesOn later
      rw [scanIndented, names, publics]
      exact ⟨by simp, ends⟩

def Unassigned : Quoting → List (List Char) → Prop
  | _, [] => True
  | mode, raw :: rest =>
      (mode.opened? = none → ¬BeginsList (Text.trim raw)) ∧ Unassigned (mode.after raw).endLine rest

instance decidableUnassigned : (mode : Quoting) → (lines : List (List Char)) → Decidable (Unassigned mode lines)
  | _, [] => .isTrue trivial
  | mode, raw :: rest => @instDecidableAnd _ _ inferInstance (decidableUnassigned (mode.after raw).endLine rest)

theorem collects_eq (outside : scan.inPublicList = false) :
    scan.collects raw = true ↔ (Quoting.ofOpened scan.opened).opened? = none ∧ BeginsList (Text.trim raw) := by
  rw [IndentedScan.collects, outside, beginsList_iff, Quoting.opened_ofOpened]
  cases scan.opened <;> simp

theorem scan_passes (lines : List (List Char)) : ∀ {scan : IndentedScan} (line : Nat), scan.inPublicList = false →
    (∀ line ∈ lines, '\n' ∉ line) → Unassigned (Quoting.ofOpened scan.opened) lines →
    (scanIndented scan line lines).findings.publicNames = scan.findings.publicNames ∧
      (scanIndented scan line lines).inPublicList = false := by
  induction lines with
  | nil => exact fun _ outside _ _ => ⟨rfl, outside⟩
  | cons raw rest ih =>
      intro scan line outside oneLine unassigned
      obtain ⟨first, others⟩ := List.forall_mem_cons.mp oneLine
      obtain ⟨begins, later⟩ := unassigned
      have passes : scan.collects raw = false := by
        rw [Bool.eq_false_iff]
        exact fun collects => begins ((collects_eq outside).mp collects).1 ((collects_eq outside).mp collects).2
      obtain ⟨publics, flag⟩ :=
        Prod.mk.inj ((step_public scan raw line).trans (if_neg (Bool.eq_false_iff.mp passes)))
      rw [← step_mode scan first line] at later
      obtain ⟨kept, still⟩ := ih (line + 1) (flag.trans outside) others later
      exact ⟨kept.trans publics, still⟩

end scan

section files

/-- The lines of a file up to an assignment of public names, from there to the first closing bracket, and behind
it. -/
structure Assigns (front block back : List (List Char)) : Prop where
  inCode : (Quoting.behind front).opened? = none
  begins : ∃ raw ∈ block.head?, BeginsList (Text.trim raw)
  goesOn : ∀ raw ∈ block.dropLast, ¬ClosesList raw
  ends : back ≠ [] → ∃ raw ∈ block.getLast?, ClosesList raw
  before : Unassigned .code front
  behind : Unassigned (Quoting.behind (front ++ block)) back

variable {front block back : List (List Char)}

theorem Assigns.publicNames (assigns : Assigns front block back) (path : String)
    (oneLine : ∀ line ∈ front ++ (block ++ back), '\n' ∉ line) :
    (scanIndented { findings := { file := path } } 1 (front ++ (block ++ back))).findings.publicNames =
      some (block.flatMap lineNames) := by
  let start : IndentedScan := { findings := { file := path } }
  let reached := scanIndented start 1 front
  have inFront : ∀ line ∈ front, '\n' ∉ line := fun line member => oneLine line (by simp [member])
  have closed : start.inPublicList = false := rfl
  obtain ⟨none, outside⟩ := scan_passes front 1 closed inFront assigns.before
  have mode : Quoting.ofOpened reached.opened = Quoting.behind front := scanIndented_opened front start 1 inFront
  obtain ⟨raw, first, begins⟩ := assigns.begins
  obtain ⟨others, rfl⟩ : ∃ others, block = raw :: others := List.head?_eq_some_iff.mp first
  have collects : reached.collects raw = true := (collects_eq outside).mpr ⟨mode ▸ assigns.inCode, begins⟩
  obtain ⟨names, ends⟩ := scan_collects others (1 + front.length) collects assigns.goesOn
  let closed := scanIndented reached (1 + front.length) (raw :: others)
  have collected : closed.findings.publicNames = some ((raw :: others).flatMap lineNames) := by
    rw [names, none]
    rfl
  rw [scanIndented_append, scanIndented_append]
  rcases eq_or_ne back [] with rfl | more
  · exact collected
  · have inBlock : ∀ line ∈ front ++ raw :: others, '\n' ∉ line := by
      intro line member
      exact oneLine line (by rw [← List.append_assoc]; exact List.mem_append_left _ member)
    have mode : Quoting.ofOpened closed.opened = Quoting.behind (front ++ raw :: others) := by
      have whole := scanIndented_opened (front ++ raw :: others) start 1 inBlock
      rwa [scanIndented_append] at whole
    have inBack : ∀ line ∈ back, '\n' ∉ line := fun line member => oneLine line (by simp [member])
    exact (scan_passes back _ (ends (assigns.ends more)) inBack (mode ▸ assigns.behind)).1.trans collected

/-- In an indented file with one assignment of public names, a routine without a class is exported if and only if its
name is among those on the lines from there to the first closing bracket. In a list that is laid out over these lines
they are its names. -/
theorem ofText_publicNames (path : String) {text : String}
    (reads : Text.lines text.toList = front ++ (block ++ back)) (assigns : Assigns front block back) :
    ∀ routine ∈ (ofText path text .indent).routines, routine.owner = none →
      (routine.exported = true ↔ routine.name ∈ block.flatMap lineNames) ∧
      ∀ list : PublicList, block.map Text.trim = list.texts →
        (routine.exported = true ↔ routine.name ∈ list.names) := by
  intro routine member unowned
  let scan := scanIndented { findings := { file := path } } 1 (front ++ (block ++ back))
  have oneLine : ∀ line ∈ front ++ (block ++ back), '\n' ∉ line := reads ▸ Text.lines_oneLine text.toList
  have held : routine ∈ scan.findings.finish.routines := by
    rw [ofText, findingsOf, reads] at member
    exact member
  obtain ⟨before, _, rfl⟩ := List.mem_map.mp held
  have exported : scan.findings.isExported before = true ↔ before.name ∈ block.flatMap lineNames := by
    rw [Findings.isExported, assigns.publicNames path oneLine, show before.owner = none from unowned]
    exact List.contains_iff_mem
  refine ⟨exported, ?_⟩
  intro list layout
  have names : block.flatMap lineNames = list.names := by
    rw [← list.quotedNames_texts, ← layout, List.flatMap_map]
    rfl
  exact names ▸ exported

theorem ofText_publicNames_layout :
    let text := "import os\n__all__: list = [  # it's all\n    'f',\n    \"g\",\n]\ndef f():\n    pass\n" ++
      "def h():\n    pass\n"
    let front := ["import os".toList]
    let block := ["__all__: list = [  # it's all".toList, "    'f',".toList, "    \"g\",".toList, "]".toList]
    let back := ["def f():".toList, "    pass".toList, "def h():".toList, "    pass".toList]
    let entry := fun (quote : LongQuote) (name : List Char) (given : name ≠ [] ∧ IsWordText name) =>
      ({ gap := [], quote, name, free := nofun, given := given.1, letters := given.2 } : Entry)
    let list : PublicList :=
      { head := "__all__: list =".toList
        first := { entries := [], other := " [  # it's all".toList, nothing := by decide +kernel }
        others :=
          [{ entries := [entry .single ['f'] (by decide)], other := [','], nothing := by decide +kernel },
            { entries := [entry .double ['g'] (by decide)], other := [','], nothing := by decide +kernel },
            { entries := [], other := [']'], nothing := by decide +kernel }]
        isHead := ⟨[], ": list ".toList, [], by decide, Or.inr ⟨" list ".toList, by decide, rfl⟩, by decide, by decide⟩
        nothing := by decide +kernel }
    Text.lines text.toList = front ++ (block ++ back) ∧ Assigns front block back ∧ block.map Text.trim = list.texts ∧
      ∀ routine ∈ (ofText "a.py" text .indent).routines, routine.owner = none →
        (routine.exported = true ↔ routine.name ∈ ["f", "g"]) := by
  intro text front block back entry list
  have reads : Text.lines text.toList = front ++ (block ++ back) := by decide +kernel
  have assigns : Assigns front block back :=
    { inCode := by decide +kernel
      begins := by decide +kernel
      goesOn := by decide +kernel
      ends := by decide +kernel
      before := by decide +kernel
      behind := by decide +kernel }
  have layout : block.map Text.trim = list.texts := by decide +kernel
  refine ⟨reads, assigns, layout, ?_⟩
  intro routine member unowned
  exact (ofText_publicNames "a.py" reads assigns routine member unowned).2 list layout

example : ((ofText "a.py" "__all__: List[str] = [\n    \"f\",\n]\ndef f():\n    pass\n" .indent).routines.map
    fun routine => (routine.name, routine.exported)) = [("f", false)] := by decide +kernel

end files

end FlowAtlas.Extraction
