import FlowAtlas.Diagram.Mermaid
import FlowAtlas.Proofs.Text.Separators

namespace FlowAtlas.Diagram

structure IsName (id : String) : Prop where
  given : id ≠ ""
  letters : ∀ c ∈ id.toList, c.isUpper = true

/-- Labels that stand in a statement as they are. They may hold an entity, for nothing turns it back. -/
def IsPlain (label : String) : Prop := ∀ c ∈ label.toList, c ≠ '\x22' ∧ c ≠ '|' ∧ c ≠ '\n'

instance (id : String) : Decidable (IsName id) :=
  decidable_of_iff (id ≠ "" ∧ id.toList.all Char.isUpper = true) (by
    rw [List.all_eq_true]
    exact ⟨fun both => ⟨both.1, both.2⟩, fun name => ⟨name.1, name.2⟩⟩)

instance (label : String) : Decidable (IsPlain label) :=
  decidable_of_iff (label.toList.all fun c => c != '\x22' && c != '|' && c != '\n') (by
    simp [IsPlain, and_assoc])

theorem IsName.notMem {id : String} (name : IsName id) (mark : Char) (other : mark.isUpper = false) :
    mark ∉ id.toList := by
  intro member
  rw [name.letters mark member] at other
  cases other

namespace IsPlain

variable {label : String} (plain : IsPlain label)
include plain

theorem quote_notMem : '\x22' ∉ label.toList := fun member => (plain _ member).1 rfl

theorem bar_notMem : '|' ∉ label.toList := fun member => (plain _ member).2.1 rfl

theorem break_notMem : '\n' ∉ label.toList := fun member => (plain _ member).2.2 rfl

omit plain in
theorem append {front back : String} (first : IsPlain front) (second : IsPlain back) : IsPlain (front ++ back) := by
  intro c member
  rw [String.toList_append] at member
  exact (List.mem_append.mp member).elim (first c) (second c)

theorem escapeLabel_eq : escapeLabel label = label := by
  have kept : label.toList.flatMap escapeChar = label.toList.flatMap fun c => [c] := by
    apply List.flatMap_congr
    intro c member
    obtain ⟨quote, -, newline⟩ := plain c member
    rw [escapeChar, if_neg (by simpa using quote), if_neg (by simpa using newline)]
  rw [escapeLabel, kept, List.flatMap_singleton', String.ofList_toList]

end IsPlain

def Shape.brackets : Shape → Char × Char
  | .box => ('[', ']')
  | .diamond => ('\x7b', '\x7d')

theorem Node.statement_toList {node : Node} (plain : IsPlain node.label) : node.statement.toList =
    node.id.toList ++ node.shape.brackets.1 :: '\x22' :: (node.label.toList ++ '\x22' :: [node.shape.brackets.2]) := by
  rw [Node.statement, quoteLabel, plain.escapeLabel_eq]
  cases node.shape <;> simp [Shape.brackets]

theorem Node.statement_inj {first second : Node} (named : IsName first.id) (called : IsName second.id)
    (plain : IsPlain first.label) (bare : IsPlain second.label) (same : first.statement = second.statement) :
    first.id = second.id ∧ first.shape = second.shape ∧ first.label = second.label := by
  have opens : ∀ shape : Shape, shape.brackets.1.isUpper = false := by
    intro shape
    cases shape <;> rfl
  have shapes : ∀ shape other : Shape, shape.brackets.1 = other.brackets.1 → shape = other := by
    intro shape other
    cases shape <;> cases other <;> decide
  have chars := congrArg String.toList same
  rw [statement_toList plain, statement_toList bare] at chars
  obtain ⟨ids, brackets, behind⟩ :=
    Text.run_inj Char.isUpper named.letters called.letters (opens first.shape) (opens second.shape) chars
  obtain ⟨labels, -⟩ := Text.cut_inj plain.quote_notMem bare.quote_notMem (List.cons.inj behind).2
  exact ⟨String.toList_inj.mp ids, shapes _ _ brackets, String.toList_inj.mp labels⟩

def Edge.inscription (edge : Edge) : List Char := edge.label.elim [] fun label => '|' :: (label.toList ++ ['|'])

theorem Edge.statement_toList {edge : Edge} (plain : ∀ label ∈ edge.label, label ≠ "" ∧ IsPlain label) :
    edge.statement.toList =
      edge.source.toList ++ ' ' :: ("-->".toList ++ (edge.inscription ++ ' ' :: edge.target.toList)) := by
  rw [Edge.statement, Edge.arrow, Edge.inscription]
  cases found : edge.label with
  | none => simp [toString]
  | some label =>
      obtain ⟨given, shown⟩ := plain label found
      simp [toString, given, shown.escapeLabel_eq]

theorem Edge.inscription_inj {first second : Edge} (plain : ∀ label ∈ first.label, IsPlain label)
    (bare : ∀ label ∈ second.label, IsPlain label)
    (same : first.inscription ++ ' ' :: first.target.toList = second.inscription ++ ' ' :: second.target.toList) :
    first.label = second.label ∧ first.target = second.target := by
  -- A blank or a bar behind the arrow tells whether there is a label.
  rw [inscription, inscription] at same
  cases named : first.label with
  | none =>
      cases called : second.label with
      | none =>
          rw [named, called] at same
          exact ⟨rfl, String.toList_inj.mp (List.cons.inj same).2⟩
      | some other =>
          rw [named, called] at same
          cases same
  | some label =>
      cases called : second.label with
      | none =>
          rw [named, called] at same
          cases same
      | some other =>
          simp only [named, called, Option.elim_some, List.cons_append, List.append_assoc, List.nil_append] at same
          obtain ⟨labels, targets⟩ :=
            Text.cut_inj (plain label named).bar_notMem (bare other called).bar_notMem (List.cons.inj same).2
          exact ⟨congrArg some (String.toList_inj.mp labels), String.toList_inj.mp (List.cons.inj targets).2⟩

theorem Edge.statement_inj {first second : Edge} (named : IsName first.source) (called : IsName second.source)
    (plain : ∀ label ∈ first.label, label ≠ "" ∧ IsPlain label)
    (bare : ∀ label ∈ second.label, label ≠ "" ∧ IsPlain label) (same : first.statement = second.statement) :
    first = second := by
  have chars := congrArg String.toList same
  rw [statement_toList plain, statement_toList bare] at chars
  obtain ⟨sources, -, behind⟩ := Text.run_inj Char.isUpper named.letters called.letters rfl rfl chars
  obtain ⟨labels, targets⟩ := inscription_inj (fun label held => (plain label held).2)
    (fun label held => (bare label held).2) (List.append_cancel_left behind)
  rw [Edge.mk.injEq]
  exact ⟨String.toList_inj.mp sources, targets, labels⟩

def subgraphHead (layer : String) : String := s!"subgraph {subgraphName layer}[{quoteLabel layer}]"

theorem subgraphHead_toList {layer : String} (plain : IsPlain layer) : (subgraphHead layer).toList =
    "subgraph ".toList ++ (layer.toList.filter Text.isWord ++ '[' :: '\x22' :: (layer.toList ++ ['\x22', ']'])) := by
  rw [subgraphHead, quoteLabel, plain.escapeLabel_eq, subgraphName]
  simp [toString]

theorem subgraphHead_inj {first second : String} (plain : IsPlain first) (bare : IsPlain second)
    (same : subgraphHead first = subgraphHead second) : first = second := by
  have chars := congrArg String.toList same
  rw [subgraphHead_toList plain, subgraphHead_toList bare] at chars
  obtain ⟨-, -, behind⟩ := Text.run_inj Text.isWord (fun c member => (List.mem_filter.mp member).2)
    (fun c member => (List.mem_filter.mp member).2) rfl rfl (List.append_cancel_left chars)
  exact String.toList_inj.mp (List.append_cancel_right (List.cons.inj behind).2)

theorem indent_toList (line : String) : (indent line).toList = ' ' :: ("   ".toList ++ line.toList) :=
  String.toList_append

theorem indent_injective : Function.Injective indent := by
  intro first second same
  have chars := congrArg String.toList same
  rw [indent_toList, indent_toList] at chars
  exact String.toList_inj.mp (List.append_cancel_left (List.cons.inj chars).2)

theorem flush_notMem {line : String} (flush : line.toList.head? ≠ some ' ') (lines : List String) :
    line ∉ lines.map indent := by
  intro member
  obtain ⟨inner, -, rfl⟩ := List.mem_map.mp member
  rw [indent_toList] at flush
  exact flush rfl

def styledIds (nodes : List Node) (style : Style) : List String :=
  (nodes.filter fun node => node.style == style).map (·.id)

section styles

variable {nodes : List Node} {style : Style} {line : String}

theorem styledIds_named (named : ∀ node ∈ nodes, IsName node.id) (style : Style) :
    ∀ id ∈ styledIds nodes style, IsName id := by
  intro id member
  obtain ⟨node, listed, rfl⟩ := List.mem_map.mp member
  exact named node (List.mem_of_mem_filter listed)

theorem styleUse?_toList (found : styleUse? nodes style = some line) : styledIds nodes style ≠ [] ∧
    line.toList =
      "class ".toList ++ ((",".intercalate (styledIds nodes style)).toList ++ ' ' :: style.label.toList) := by
  rw [styleUse?, ← styledIds] at found
  split at found
  · cases found
  · rename_i given
    rw [← Option.some.inj found]
    exact ⟨by simpa using given, by simp [toString]⟩

theorem joined_notMem {ids : List String} (named : ∀ id ∈ ids, IsName id) (mark : Char) (other : mark.isUpper = false)
    (apart : mark ≠ ',') : mark ∉ (",".intercalate ids).toList := by
  have between : Text.Without mark "," := by
    simpa [Text.Without] using apart
  exact Text.without_intercalate between fun id member => (named id member).notMem mark other

theorem styleUse?_inj {others : List Node} {twin : Style} (named : ∀ node ∈ nodes, IsName node.id)
    (called : ∀ node ∈ others, IsName node.id) (found : styleUse? nodes style = some line)
    (again : styleUse? others twin = some line) : style = twin ∧ styledIds nodes style = styledIds others twin := by
  have labels : ∀ style other : Style, style.label.toList = other.label.toList → style = other := by
    intro style other
    cases style <;> cases other <;> decide
  have ids := styledIds_named named style
  have same := styledIds_named called twin
  obtain ⟨given, chars⟩ := styleUse?_toList found
  obtain ⟨more, copy⟩ := styleUse?_toList again
  rw [chars] at copy
  obtain ⟨joined, styles⟩ := Text.cut_inj (joined_notMem ids ' ' rfl (by decide))
    (joined_notMem same ' ' rfl (by decide)) (List.append_cancel_left copy)
  exact ⟨labels _ _ styles, Text.intercalate_injective rfl given more (fun id member => (ids id member).notMem ',' rfl)
    (fun id member => (same id member).notMem ',' rfl) (String.toList_inj.mp joined)⟩

end styles

section lines

theorem indent_oneLine {line : String} (whole : '\n' ∉ line.toList) : '\n' ∉ (indent line).toList := by
  rw [indent_toList]
  simpa using whole

theorem Node.statement_oneLine {node : Node} (named : IsName node.id) (plain : IsPlain node.label) :
    '\n' ∉ node.statement.toList := by
  have within := named.notMem '\n' rfl
  have brackets : '\n' ≠ node.shape.brackets.1 ∧ '\n' ≠ node.shape.brackets.2 := by
    cases node.shape <;> decide
  rw [statement_toList plain]
  simp [within, plain.break_notMem, brackets]

theorem Edge.statement_oneLine {edge : Edge} (source : IsName edge.source) (target : IsName edge.target)
    (plain : ∀ label ∈ edge.label, label ≠ "" ∧ IsPlain label) : '\n' ∉ edge.statement.toList := by
  have inscribed : '\n' ∉ edge.inscription := by
    rw [inscription]
    cases found : edge.label with
    | none => exact List.not_mem_nil
    | some label => simp [(plain label found).2.break_notMem]
  rw [statement_toList plain]
  simp [source.notMem '\n' rfl, target.notMem '\n' rfl, inscribed]

theorem subgraphHead_oneLine {layer : String} (plain : IsPlain layer) : '\n' ∉ (subgraphHead layer).toList := by
  rw [subgraphHead_toList plain]
  simp [plain.break_notMem]

theorem styleDefinition_oneLine (style : Style) : '\n' ∉ (styleDefinition style).toList := by
  have label : '\n' ∉ style.label.toList := by
    cases style <;> decide
  have appearance : '\n' ∉ (appearance style).toList := by
    cases style <;> exact Text.without_literal (by decide +kernel)
  rw [styleDefinition]
  simp [toString, label, appearance]

theorem styleUse?_oneLine {nodes : List Node} {style : Style} {line : String} (named : ∀ node ∈ nodes, IsName node.id)
    (found : styleUse? nodes style = some line) : '\n' ∉ line.toList := by
  have joined := joined_notMem (styledIds_named named style) '\n' rfl (by decide)
  have label : '\n' ∉ style.label.toList := by
    cases style <;> decide
  rw [(styleUse?_toList found).2]
  simp [-String.toList_intercalate, joined, label]

end lines

end FlowAtlas.Diagram
