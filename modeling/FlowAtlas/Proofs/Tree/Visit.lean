import FlowAtlas.Tree.Walk
import Mathlib.Data.List.Basic

/-! What a walk meets, and in which order: what no ignored name and no limit of depth hides, one directory after the
other. -/

namespace FlowAtlas

/-- Names lead to an entry from the directory that lists the first of them. -/
inductive Tree.At : List Tree → List String → Tree → Prop where
  | entry {entries : List Tree} {tree : Tree} (member : tree ∈ entries) : At entries [tree.name] tree
  | inside {entries inner : List Tree} {name : String} {names : List String} {tree : Tree}
      (member : .directory name inner ∈ entries) (deeper : At inner names tree) : At entries (name :: names) tree

/-- The order in which places below a directory are met: its own entries before all that is deeper, entries and
subdirectories as they are listed. -/
inductive Tree.Before : List Tree → List String → List String → Prop where
  | beside {entries : List Tree} {first second : String} (names : [first, second].Sublist (entries.map Tree.name)) :
      Before entries [first] [second]
  | above (entries : List Tree) (first second : String) {rest : List String} (deeper : rest ≠ []) :
      Before entries [first] (second :: rest)
  | apart {entries : List Tree} {first second : String} {front back : List String}
      (names : [first, second].Sublist (entries.map Tree.name)) (given : front ≠ []) (more : back ≠ []) :
      Before entries (first :: front) (second :: back)
  | within {entries inner : List Tree} {name : String} {front back : List String}
      (member : .directory name inner ∈ entries) (before : Before inner front back) :
      Before entries (name :: front) (name :: back)

theorem Tree.At.ne_nil {entries : List Tree} {names : List String} {tree : Tree} (found : At entries names tree) :
    names ≠ [] := by
  cases found <;> exact List.cons_ne_nil _ _

theorem Tree.At.concat {entries inner : List Tree} {names : List String} {own : String} {tree : Tree}
    (found : At entries names (.directory own inner)) (member : tree ∈ inner) :
    At entries (names ++ [tree.name]) tree := by
  generalize same : Tree.directory own inner = outer at found
  induction found with
  | entry listed =>
      subst same
      exact .inside listed (.entry member)
  | inside listed deeper ih => exact .inside listed (ih same)

theorem Tree.At.last {entries : List Tree} {names : List String} {tree : Tree} (found : At entries names tree) :
    tree ∈ entries ∧ names = [tree.name] ∨ ∃ front own inner, At entries front (.directory own inner) ∧
      tree ∈ inner ∧ names = front ++ [tree.name] := by
  induction found with
  | entry member => exact Or.inl ⟨member, rfl⟩
  | @inside _ inner name names _ member deeper ih =>
      right
      rcases ih with ⟨held, rfl⟩ | ⟨front, own, last, found, held, rfl⟩
      · exact ⟨[name], name, inner, .entry member, held, rfl⟩
      · exact ⟨name :: front, own, last, .inside member found, held, rfl⟩

def Tree.listing? : Tree → Option (Except String (List Tree))
  | .directory _ entries => some (.ok entries)
  | .closed _ reason => some (.error reason)
  | .file _ _ | .linked _ => none

theorem Tree.listing_ok {tree : Tree} {entries : List Tree} :
    tree.listing? = some (.ok entries) ↔ ∃ name, tree = .directory name entries := by
  cases tree <;> simp [listing?]

theorem Tree.listing_error {tree : Tree} {reason : String} :
    tree.listing? = some (.error reason) ↔ ∃ name, tree = .closed name reason := by
  cases tree <;> simp [listing?]

namespace Walk

def Item.place : Item → List String
  | file place _ => place
  | directory place => place

def itemAt (place : List String) : Tree → Item
  | .file _ content => .file place content
  | .linked _ | .directory _ _ | .closed _ _ => .directory place

theorem itemAt_place (place : List String) (tree : Tree) : (itemAt place tree).place = place := by
  cases tree <;> rfl

variable {config : Config} {entries : List Tree} {name : String} {place : List String}

def kept (config : Config) (entries : List Tree) : List Tree :=
  entries.filter fun entry => !config.ignores entry.name

theorem mem_kept {tree : Tree} :
    tree ∈ kept config entries ↔ tree ∈ entries ∧ config.ignores tree.name = false := by
  rw [kept, List.mem_filter, Bool.not_eq_true']

theorem ownItems_eq (config : Config) (place : List String) (entries : List Tree) :
    ownItems config place (.ok entries) =
      (kept config entries).map fun entry => itemAt (place ++ [entry.name]) entry := by
  rw [ownItems, kept]
  refine List.map_congr_left fun entry _ => ?_
  cases entry <;> rfl

theorem mem_ownItems {item : Item} : item ∈ ownItems config place (.ok entries) ↔
    ∃ tree ∈ entries, config.ignores tree.name = false ∧ item = itemAt (place ++ [tree.name]) tree := by
  simp only [ownItems_eq, List.mem_map, mem_kept, and_assoc]
  exact exists_congr fun tree => and_congr_right fun _ => and_congr_right fun _ => eq_comm

theorem enteredEach_eq (config : Config) (depth : Nat) (place : List String) (entries : List Tree) :
    enteredEach config depth place entries =
      (kept config entries).flatMap fun entry => entered config depth (place ++ [entry.name]) entry := by
  induction entries with
  | nil => simp [enteredEach, kept]
  | cons entry rest ih =>
      rw [kept] at ih ⊢
      rw [enteredEach, ih]
      by_cases ignored : config.ignores entry.name = true <;> simp [ignored]

theorem entered_zero : entered config 0 place (.directory name entries) = [(place, .ok entries)] := by
  rw [entered, if_pos rfl]

theorem entered_succ (depth : Nat) : entered config (depth + 1) place (.directory name entries) =
    (place, .ok entries) ::
      (kept config entries).flatMap fun entry => entered config depth (place ++ [entry.name]) entry := by
  rw [entered, if_neg (Nat.succ_ne_zero depth), Nat.add_sub_cancel, enteredEach_eq]

theorem visit_zero : visit config 0 place (.directory name entries) = ownItems config place (.ok entries) := by
  rw [visit, entered_zero, List.flatMap_singleton]

theorem visit_succ (depth : Nat) : visit config (depth + 1) place (.directory name entries) =
    ownItems config place (.ok entries) ++
      (kept config entries).flatMap fun entry => visit config depth (place ++ [entry.name]) entry := by
  rw [visit, entered_succ, List.flatMap_cons, List.flatMap_assoc]
  rfl

theorem directory_of_mem_visit {depth : Nat} {tree : Tree} {item : Item}
    (met : item ∈ visit config depth place tree) : ∃ name inner, tree = .directory name inner := by
  cases tree with
  | file name content => simp [visit, entered] at met
  | linked name => simp [visit, entered] at met
  | directory name inner => exact ⟨name, inner, rfl⟩
  | closed name reason => simp [visit, entered, ownItems] at met

theorem mem_entered (depth : Nat) : ∀ {place there : List String} {entries : List Tree} {name : String}
    {listing : Except String (List Tree)}, (there, listing) ∈ entered config depth place (.directory name entries) ↔
      there = place ∧ listing = .ok entries ∨
        ∃ names tree, Tree.At entries names tree ∧ tree.listing? = some listing ∧
          (∀ name ∈ names, config.ignores name = false) ∧ names.length ≤ depth ∧ there = place ++ names := by
  induction depth with
  | zero =>
      intro place there entries name listing
      rw [entered_zero, List.mem_singleton, Prod.mk.injEq]
      refine ⟨Or.inl, ?_⟩
      rintro (here | ⟨names, tree, found, -, -, shallow, -⟩)
      · exact here
      · exact absurd (List.length_eq_zero_iff.mp (Nat.le_zero.mp shallow)) found.ne_nil
  | succ depth ih =>
      intro place there entries name listing
      rw [entered_succ, List.mem_cons, Prod.mk.injEq, List.mem_flatMap]
      refine or_congr_right ?_
      constructor
      · rintro ⟨entry, among, met⟩
        obtain ⟨member, kept⟩ := mem_kept.mp among
        cases entry with
        | file own content => simp [entered] at met
        | linked own => simp [entered] at met
        | directory own inner =>
            rcases ih.mp met with ⟨rfl, rfl⟩ | ⟨names, tree, found, lists, others, shallow, rfl⟩
            · exact ⟨[own], _, .entry member, rfl, List.forall_mem_singleton.mpr kept, by simp, rfl⟩
            · refine ⟨own :: names, tree, .inside member found, lists, ?_, Nat.succ_le_succ shallow, ?_⟩
              · exact List.forall_mem_cons.mpr ⟨kept, others⟩
              · exact (List.append_cons place own names).symm
        | closed own reason =>
            rw [entered, List.mem_singleton] at met
            cases met
            exact ⟨[own], _, .entry member, rfl, List.forall_mem_singleton.mpr kept, by simp, rfl⟩
      · rintro ⟨names, tree, found, lists, kept, shallow, rfl⟩
        cases found with
        | entry member =>
            refine ⟨tree, mem_kept.mpr ⟨member, kept _ List.mem_cons_self⟩, ?_⟩
            cases tree with
            | file own content => cases lists
            | linked own => cases lists
            | directory own inner =>
                cases lists
                exact ih.mpr (Or.inl ⟨rfl, rfl⟩)
            | closed own reason =>
                cases lists
                rw [entered]
                exact List.mem_cons_self
        | @inside _ inner name names _ member deeper =>
            obtain ⟨first, others⟩ := List.forall_mem_cons.mp kept
            refine ⟨.directory name inner, mem_kept.mpr ⟨member, first⟩, ?_⟩
            rw [List.append_cons place name names]
            exact ih.mpr (Or.inr ⟨names, tree, deeper, lists, others, Nat.le_of_succ_le_succ shallow, rfl⟩)

theorem mem_visit (depth : Nat) {item : Item} : item ∈ visit config depth place (.directory name entries) ↔
    ∃ names tree, Tree.At entries names tree ∧ (∀ name ∈ names, config.ignores name = false) ∧
      names.length ≤ depth + 1 ∧ item = itemAt (place ++ names) tree := by
  rw [visit, List.mem_flatMap]
  constructor
  · rintro ⟨⟨there, listing⟩, came, own⟩
    rcases (mem_entered depth).mp came with ⟨rfl, rfl⟩ | ⟨names, tree, found, lists, kept, shallow, rfl⟩
    · obtain ⟨tree, member, kept, rfl⟩ := mem_ownItems.mp own
      exact ⟨[tree.name], tree, .entry member, List.forall_mem_singleton.mpr kept, by simp, rfl⟩
    · cases listing with
      | error reason => cases own
      | ok inner =>
          obtain ⟨last, member, fresh, rfl⟩ := mem_ownItems.mp own
          obtain ⟨own, rfl⟩ := Tree.listing_ok.mp lists
          refine ⟨names ++ [last.name], last, found.concat member, ?_, ?_, by rw [List.append_assoc]⟩
          · exact List.forall_mem_append.mpr ⟨kept, List.forall_mem_singleton.mpr fresh⟩
          · rw [List.length_append, List.length_singleton]
            exact Nat.succ_le_succ shallow
  · rintro ⟨names, tree, found, kept, shallow, rfl⟩
    rcases found.last with ⟨member, rfl⟩ | ⟨front, own, inner, outer, member, rfl⟩
    · refine ⟨(place, .ok entries), (mem_entered depth).mpr (Or.inl ⟨rfl, rfl⟩), mem_ownItems.mpr ?_⟩
      exact ⟨tree, member, kept _ List.mem_cons_self, rfl⟩
    · obtain ⟨before, last⟩ := List.forall_mem_append.mp kept
      rw [List.length_append, List.length_singleton] at shallow
      refine ⟨(place ++ front, .ok inner), (mem_entered depth).mpr (Or.inr ?_), mem_ownItems.mpr ?_⟩
      · exact ⟨front, _, outer, rfl, before, Nat.le_of_succ_le_succ shallow, rfl⟩
      · exact ⟨tree, member, last _ List.mem_cons_self, by rw [List.append_assoc]⟩

theorem visit_below {depth : Nat} {tree : Tree} {item : Item}
    (met : item ∈ visit config depth (place ++ [name]) tree) :
    ∃ names, names ≠ [] ∧ item.place = place ++ name :: names := by
  obtain ⟨own, inner, rfl⟩ := directory_of_mem_visit met
  obtain ⟨names, tree, found, _, _, rfl⟩ := (mem_visit depth).mp met
  exact ⟨names, found.ne_nil, (itemAt_place _ tree).trans (List.append_cons place name names).symm⟩

def Ordered (entries : List Tree) (place : List String) (one other : Item) : Prop :=
  ∃ first second, one.place = place ++ first ∧ other.place = place ++ second ∧ Tree.Before entries first second

theorem kept_listed : (kept config entries).Pairwise fun one other =>
    [one.name, other.name].Sublist (entries.map Tree.name) := by
  have listed : entries.Pairwise fun one other => [one.name, other.name].Sublist (entries.map Tree.name) := by
    rw [List.pairwise_iff_forall_sublist]
    exact fun both => both.map Tree.name
  exact listed.filter _

theorem ownItems_ordered (place : List String) :
    (ownItems config place (.ok entries)).Pairwise (Ordered entries place) := by
  rw [ownItems_eq, List.pairwise_map]
  refine kept_listed.imp fun {one other} names => ?_
  exact ⟨[one.name], [other.name], itemAt_place _ one, itemAt_place _ other, .beside names⟩

/-- A walk meets the entries of each directory as they are listed, and only then what is deeper. -/
theorem visit_ordered (depth : Nat) : ∀ {place : List String} {name : String} {entries : List Tree},
    (visit config depth place (.directory name entries)).Pairwise (Ordered entries place) := by
  induction depth with
  | zero =>
      intro place name entries
      rw [visit_zero]
      exact ownItems_ordered place
  | succ depth ih =>
      intro place name entries
      rw [visit_succ, List.pairwise_append, List.pairwise_flatMap]
      refine ⟨ownItems_ordered place, ⟨?_, ?_⟩, ?_⟩
      · intro entry among
        by_cases inside : ∃ name inner, entry = .directory name inner
        · obtain ⟨name, inner, rfl⟩ := inside
          refine ih.imp fun {one other} ordered => ?_
          obtain ⟨first, second, here, there, before⟩ := ordered
          refine ⟨name :: first, name :: second, ?_, ?_, .within (mem_kept.mp among).1 before⟩
          · exact here.trans (List.append_cons place name first).symm
          · exact there.trans (List.append_cons place name second).symm
        · have nothing : visit config depth (place ++ [entry.name]) entry = [] := by
            rw [List.eq_nil_iff_forall_not_mem]
            exact fun item met => inside (directory_of_mem_visit met)
          rw [nothing]
          exact List.Pairwise.nil
      · refine kept_listed.imp fun {one other} names => ?_
        intro early met late found
        obtain ⟨front, given, here⟩ := visit_below met
        obtain ⟨back, more, there⟩ := visit_below found
        exact ⟨one.name :: front, other.name :: back, here, there, .apart names given more⟩
      · intro early own late found
        obtain ⟨tree, _, _, rfl⟩ := mem_ownItems.mp own
        obtain ⟨entry, _, met⟩ := List.mem_flatMap.mp found
        obtain ⟨names, given, there⟩ := visit_below met
        exact ⟨[tree.name], entry.name :: names, itemAt_place _ tree, there, .above entries _ _ given⟩

end Walk

end FlowAtlas
