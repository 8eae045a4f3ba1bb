import FlowAtlas.Proofs.Extraction.Changes

namespace FlowAtlas.Extraction

variable {lines : List (List Char)} {count : Nat}

theorem scanBraced_append (braces : Braces) (first second : List (List Char)) :
    ∀ (scan : BracedScan) (line : Nat), scanBraced braces scan line (first ++ second) =
      scanBraced braces (scanBraced braces scan line first) (line + first.length) second := by
  induction first with
  | nil => exact fun _ _ => rfl
  | cons raw rest ih =>
      intro scan line
      rw [List.cons_append, scanBraced, ih, List.length_cons, Nat.add_right_comm, Nat.add_assoc]
      rfl

theorem scanIndented_append (first second : List (List Char)) :
    ∀ (scan : IndentedScan) (line : Nat), scanIndented scan line (first ++ second) =
      scanIndented (scanIndented scan line first) (line + first.length) second := by
  induction first with
  | nil => exact fun _ _ => rfl
  | cons raw rest ih =>
      intro scan line
      rw [List.cons_append, scanIndented, ih, List.length_cons, Nat.add_right_comm, Nat.add_assoc]
      rfl

def bracedAfter (braces : Braces) (path : String) (lines : List (List Char)) (count : Nat) : BracedScan :=
  scanBraced braces { findings := { file := path } } 1 (lines.take count)

theorem bracedAfter_succ (braces : Braces) (path : String) (held : count < lines.length) :
    bracedAfter braces path lines (count + 1) =
      (bracedAfter braces path lines count).step braces lines[count] (count + 1) := by
  rw [bracedAfter, List.take_succ_eq_append_getElem held, scanBraced_append, List.length_take,
    Nat.min_eq_left (Nat.le_of_lt held), Nat.add_comm 1]
  rfl

theorem bracedAfter_beyond (braces : Braces) (path : String) (beyond : lines.length ≤ count) :
    bracedAfter braces path lines count = scanBraced braces { findings := { file := path } } 1 lines := by
  rw [bracedAfter, List.take_of_length_le beyond]

def indentedAfter (path : String) (lines : List (List Char)) (count : Nat) : IndentedScan :=
  scanIndented { findings := { file := path } } 1 (lines.take count)

theorem indentedAfter_beyond (path : String) (beyond : lines.length ≤ count) :
    indentedAfter path lines count = scanIndented { findings := { file := path } } 1 lines := by
  rw [indentedAfter, List.take_of_length_le beyond]

end FlowAtlas.Extraction
