import FlowAtlas.Proofs.Analysis.Routines
import FlowAtlas.Proofs.Tree.Visit
import FlowAtlas.Surroundings

namespace FlowAtlas

namespace Text.Utf8

theorem scan_ascii {c : Char} (low : c.toNat < 128) (rest : List UInt8) :
    scan none (UInt8.ofNat c.toNat :: rest) = some c :: scan none rest := by
  have same : (UInt8.ofNat c.toNat).toNat = c.toNat := by
    rw [UInt8.toNat_ofNat']
    exact Nat.mod_eq_of_lt (by omega)
  rw [scan, same, scan.between, if_pos low, Char.ofNat_toNat]

theorem decode_ascii {text : List Char} (low : ∀ c ∈ text, c.toNat < 128) :
    decode (text.map fun c => UInt8.ofNat c.toNat) = text := by
  induction text with
  | nil =>
      rw [decode, List.map_nil, scan]
      rfl
  | cons c text ih =>
      rw [List.forall_mem_cons] at low
      have rest := ih low.2
      rw [decode] at rest ⊢
      rw [List.map_cons, scan_ascii low.1, List.map_cons, rest, Option.getD_some]

end Text.Utf8

def isPlain (text : String) : Bool := text.toList.all fun c => c.toNat < 128

def Tree.plain (name text : String) : Tree := .file name (.ok (text.toList.map fun c => UInt8.ofNat c.toNat))

/-- A directory that holds some plain files, and nobody to send requests to. -/
def Surroundings.plain (files : List (String × String)) : Surroundings :=
  { entries := .ok (files.map fun file => .plain file.1 file.2)
    moment := { year := 2024, month := 1, day := 1 }
    send := fun _ => .error ⟨.noReply, "", .null, .null⟩ }

def plainRoutines (files : List (String × String)) : List Routine :=
  files.flatMap fun file => ((Dialect.ofFileName? file.1).map fun dialect =>
    (Extraction.ofText file.1 (String.ofList (Text.unifyNewlines file.2.toList)) dialect).routines).getD []

variable {config : Config} {files : List (String × String)}
  (kept : ∀ file ∈ files, config.ignores file.1 = false)

include kept

theorem Walk.visit_plain (depth : Nat) :
    visit config depth [] (.directory "" (files.map fun file => .plain file.1 file.2)) =
      files.map fun file => itemAt [file.1] (.plain file.1 file.2) := by
  have all : Walk.kept config (files.map fun file => Tree.plain file.1 file.2) =
      files.map fun file => .plain file.1 file.2 := by
    rw [Walk.kept, List.filter_eq_self]
    intro entry member
    obtain ⟨file, among, rfl⟩ := List.mem_map.mp member
    rw [Bool.not_eq_true']
    exact kept file among
  have own : ownItems config [] (.ok (files.map fun file => .plain file.1 file.2)) =
      files.map fun file => itemAt [file.1] (.plain file.1 file.2) := by
    rw [ownItems_eq, all, List.map_map]
    rfl
  cases depth with
  | zero => rw [visit_zero, own]
  | succ depth =>
      have inside : (files.map fun file => Tree.plain file.1 file.2).flatMap
          (fun entry => visit config depth ([] ++ [entry.name]) entry) = [] := by
        rw [List.flatMap_map, List.flatMap_eq_nil_iff]
        intro file _
        rfl
      rw [visit_succ, own, all, inside, List.append_nil]

theorem Surroundings.plain_routines (low : ∀ file ∈ files, isPlain file.2 = true) (root : String) :
    ((plain files).extraction config root).routines = plainRoutines files := by
  let trees := files.map fun file => Tree.plain file.1 file.2
  have sources : (Walk.ofEntries config root (plain files).entries).sources =
      (Walk.visit config config.maxDepth.toNat [] (.directory "" trees)).filterMap (Walk.source? root) := rfl
  rw [extraction, walk, Extraction.ofWalk_routines, sources, Walk.visit_plain kept, List.filterMap_map]
  clear kept sources
  induction files with
  | nil => rfl
  | cons file files ih =>
      rw [List.forall_mem_cons] at low
      have ascii : ∀ c ∈ file.2.toList, c.toNat < 128 := by simpa [isPlain] using low.1
      have source : Walk.source? root (Walk.itemAt [file.1] (.plain file.1 file.2)) =
          (Dialect.ofFileName? file.1).map fun dialect => ⟨⟨Path.join root file.1, file.1, dialect⟩,
            .ok (file.2.toList.map fun c => UInt8.ofNat c.toNat)⟩ := rfl
      rw [plainRoutines] at ih ⊢
      rw [List.flatMap_cons, ← ih low.2, List.filterMap_cons, Function.comp_apply, source]
      cases Dialect.ofFileName? file.1 with
      | none => rfl
      | some dialect =>
          simp only [Option.map_some, List.flatMap_cons, Extraction.routinesIn, SourceText.text?,
            Text.Utf8.decode_ascii ascii, Option.getD_some]

theorem Surroundings.plain_graph (low : ∀ file ∈ files, isPlain file.2 = true) (root : String) :
    (plain files).graph config root = (Landscape.ofExtraction { routines := plainRoutines files }).graph := by
  rw [graph]
  simp only [Landscape.ofExtraction, plain_routines kept low root]

end FlowAtlas
