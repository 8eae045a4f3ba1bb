import FlowAtlas.Proofs.Text.Separators
import FlowAtlas.Proofs.Tree.Visit
import Mathlib.Data.List.Nodup

namespace FlowAtlas

mutual

/-- The entries of each directory have different names, none of them with a slash. -/
def Tree.WellNamed : Tree → Prop
  | .directory _ entries => Tree.WellListed entries
  | .file _ _ | .linked _ | .closed _ _ => True

def Tree.WellListed : List Tree → Prop
  | [] => True
  | entry :: rest =>
    entry.name ∉ rest.map Tree.name ∧ '/' ∉ entry.name.toList ∧ entry.WellNamed ∧ Tree.WellListed rest

end

theorem Tree.WellListed.names {entries : List Tree} (listed : WellListed entries) : (entries.map Tree.name).Nodup := by
  induction entries with
  | nil => exact List.nodup_nil
  | cons entry rest ih =>
      obtain ⟨fresh, _, _, others⟩ := listed
      exact List.nodup_cons.mpr ⟨fresh, ih others⟩

theorem Tree.WellListed.entry {entries : List Tree} (listed : WellListed entries) :
    ∀ entry ∈ entries, '/' ∉ entry.name.toList ∧ entry.WellNamed := by
  induction entries with
  | nil => simp
  | cons entry rest ih =>
      obtain ⟨_, plain, named, others⟩ := listed
      exact List.forall_mem_cons.mpr ⟨⟨plain, named⟩, ih others⟩

theorem Tree.At.plain {entries : List Tree} {names : List String} {tree : Tree} (found : At entries names tree)
    (listed : WellListed entries) : ∀ name ∈ names, '/' ∉ name.toList := by
  induction found with
  | entry member => exact List.forall_mem_singleton.mpr (listed.entry _ member).1
  | inside member deeper ih =>
      obtain ⟨plain, named⟩ := listed.entry _ member
      exact List.forall_mem_cons.mpr ⟨plain, ih named⟩

theorem Tree.one_way {names : List String} (once : names.Nodup) {first second : String}
    (ahead : [first, second].Sublist names) : ¬ [second, first].Sublist names := by
  induction names with
  | nil => cases ahead
  | cons name rest ih =>
      obtain ⟨fresh, once⟩ := List.nodup_cons.mp once
      intro behind
      cases ahead with
      | cons _ ahead =>
          cases behind with
          | cons _ behind => exact ih once ahead behind
          | cons_cons _ behind => exact fresh (ahead.subset (List.mem_cons_of_mem _ List.mem_cons_self))
      | cons_cons _ ahead =>
          cases behind with
          | cons _ behind => exact fresh (behind.subset (List.mem_cons_of_mem _ List.mem_cons_self))
          | cons_cons _ behind => exact fresh (ahead.subset List.mem_cons_self)

theorem Tree.Before.given {entries : List Tree} {first second : List String} (before : Before entries first second) :
    first ≠ [] ∧ second ≠ [] := by
  cases before <;> exact ⟨List.cons_ne_nil _ _, List.cons_ne_nil _ _⟩

theorem Tree.Before.asymm {entries : List Tree} {first second : List String} (before : Before entries first second)
    (listed : WellListed entries) : ¬ Before entries second first := by
  induction before with
  | beside names =>
      intro after
      cases after with
      | beside others => exact Tree.one_way listed.names names others
      | above entries first second deeper => exact deeper rfl
      | apart others given more => exact given rfl
      | within member after => exact after.given.1 rfl
  | above entries first second deeper =>
      intro after
      cases after with
      | beside others => exact deeper rfl
      | above entries first second more => exact more rfl
      | apart others given more => exact more rfl
      | within member after => exact after.given.2 rfl
  | apart names given more =>
      intro after
      cases after with
      | beside others => exact given rfl
      | above entries first second deeper => exact more rfl
      | apart others _ _ => exact Tree.one_way listed.names names others
      | within member after => exact Tree.one_way listed.names names names
  | @within _ inner name front back member before ih =>
      intro after
      cases after with
      | beside others => exact before.given.1 rfl
      | above entries first second deeper => exact before.given.2 rfl
      | apart others _ _ => exact Tree.one_way listed.names others others
      | @within _ other _ _ _ held after =>
          have same := List.inj_on_of_nodup_map listed.names member held rfl
          cases same
          exact ih (listed.entry _ member).2 after

theorem Tree.Before.ne {entries : List Tree} {first second : List String} (before : Before entries first second)
    (listed : WellListed entries) : first ≠ second := by
  rintro rfl
  exact before.asymm listed before

namespace Walk

theorem places_distinct {entries : List Tree} (listed : Tree.WellListed entries) (config : Config) (depth : Nat)
    (name : String) : ((visit config depth [] (.directory name entries)).map Item.place).Nodup := by
  refine List.pairwise_map.mpr ((visit_ordered depth).imp fun {one other} ordered => ?_)
  obtain ⟨first, second, here, there, before⟩ := ordered
  rw [here, there]
  exact before.ne listed

theorem filePlaces_sublist (items : List Item) : (filePlaces items).Sublist (items.map Item.place) := by
  induction items with
  | nil => simp [filePlaces]
  | cons item rest ih =>
      cases item with
      | file place content => exact ih.cons_cons _
      | directory place => exact ih.cons _

theorem sources_paths (root : String) (items : List Item) :
    ((items.filterMap (source? root)).map (·.source.relativePath)).Sublist
      ((filePlaces items).map fun place => "/".intercalate place) := by
  induction items with
  | nil => simp [filePlaces]
  | cons item rest ih =>
      cases item with
      | directory place => exact ih
      | file place content =>
          cases named : Dialect.ofFileName? (place.getLast?.getD "") with
          | none =>
              have skipped : source? root (.file place content) = none := by simp [source?, named]
              rw [List.filterMap_cons_none skipped]
              exact ih.cons _
          | some dialect =>
              have kept : source? root (.file place content) = some
                  ⟨⟨place.foldl Path.join root, "/".intercalate place, dialect⟩, content⟩ := by
                simp [source?, named]
              rw [List.filterMap_cons_some kept]
              exact ih.cons_cons _

theorem ofEntries_paths_nodup (config : Config) (root : String) (entries : Except PathFault (List Tree))
    (listed : ∀ trees, entries = .ok trees → Tree.WellListed trees) :
    ((ofEntries config root entries).sources.map (·.source.relativePath)).Nodup := by
  cases entries with
  | error fault => exact List.nodup_nil
  | ok trees =>
      let items := visit config config.maxDepth.toNat [] (.directory "" trees)
      have named : Tree.WellListed trees := listed trees rfl
      have distinct : (items.map Item.place).Nodup := places_distinct named _ _ _
      have below : ∀ place ∈ filePlaces items, place ≠ [] ∧ ∀ name ∈ place, '/' ∉ name.toList := by
        intro place member
        obtain ⟨item, met, rfl⟩ := List.mem_map.mp ((filePlaces_sublist items).subset member)
        obtain ⟨names, tree, found, _, _, rfl⟩ := (mem_visit _).mp met
        rw [itemAt_place]
        exact ⟨found.ne_nil, found.plain named⟩
      refine (sources_paths root items).nodup ?_
      refine (List.nodup_map_iff_inj_on (distinct.sublist (filePlaces_sublist items))).mpr ?_
      intro first member second held same
      obtain ⟨given, plain⟩ := below first member
      obtain ⟨more, free⟩ := below second held
      exact Text.intercalate_injective rfl given more plain free same

end Walk

end FlowAtlas
