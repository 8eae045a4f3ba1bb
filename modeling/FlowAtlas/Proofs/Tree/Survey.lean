import FlowAtlas.Proofs.CallGraph.Coherence
import FlowAtlas.Proofs.Tree.Places
import FlowAtlas.Tree.FileSystem

/-! A walk meets what no ignored name and no limit of depth hides, as it is listed, and counts it. -/

namespace FlowAtlas

structure Config.Reaches (config : Config) (names : List String) : Prop where
  kept : ∀ name ∈ names, config.ignores name = false
  depth : names.length ≤ config.maxDepth.toNat + 1

namespace Walk

theorem tally_append (texts : List String) (text : String) :
    tally (texts ++ [text]) = (tally texts).put text (((tally texts).get? text).getD 0 + 1) := by
  rw [tally, List.foldl_append]
  rfl

theorem tally_keys (texts : List String) : (tally texts).keys = texts.eraseDups := by
  induction texts using List.reverseRecOn with
  | nil => simp [tally, Table.keys]
  | append_singleton texts text ih =>
      rw [tally_append, Table.keys_put, ih, ← CallGraph.noteNew_eraseDups, CallGraph.noteNew]
      simp only [List.contains_iff_mem]

theorem tally_get (texts : List String) (text : String) : ((tally texts).get? text).getD 0 = texts.count text := by
  induction texts using List.reverseRecOn with
  | nil => simp [tally, Table.get?]
  | append_singleton texts last ih =>
      rw [tally_append, Table.get?_put, List.count_append]
      by_cases same : text = last
      · subst same
        simp [ih]
      · simp [same, Ne.symm same, ih]

theorem tally_eq (texts : List String) :
    tally texts = texts.eraseDups.map fun text => (text, (texts.count text : Int)) := by
  have distinct : (tally texts).keys.Nodup := by
    rw [tally_keys]
    exact CallGraph.nodup_eraseDups texts
  have counted := Table.eq_map_keys 0 distinct
  simp only [tally_keys, tally_get] at counted
  exact counted

theorem tally_sum (texts : List String) : ((tally texts).map (·.2)).sum = texts.length := by
  induction texts using List.reverseRecOn with
  | nil => simp [tally]
  | append_singleton texts text ih =>
      rw [tally_append, Table.sum_put, ih, List.length_append, List.length_singleton]
      omega

abbrev Found := List String × Except PathFault (List UInt8)

def Item.file? : Item → Option Found
  | file place content => some (place, content)
  | directory _ => none

def Item.directory? : Item → Option (List String)
  | file _ _ => none
  | directory place => some place

theorem file?_eq_some {item : Item} {found : Found} : item.file? = some found ↔ item = .file found.1 found.2 := by
  cases item <;> simp [Item.file?, Prod.ext_iff]

theorem directory?_eq_some {item : Item} {place : List String} :
    item.directory? = some place ↔ item = .directory place := by
  cases item <;> simp [Item.directory?]

theorem file?_places (items : List Item) : (items.filterMap Item.file?).map (·.1) = filePlaces items := by
  rw [filePlaces, List.map_filterMap]
  congr 1
  funext item
  cases item <;> rfl

theorem directories_sublist (items : List Item) :
    (items.filterMap Item.directory?).Sublist (items.map Item.place) := by
  induction items with
  | nil => simp
  | cons item rest ih =>
      cases item with
      | file place content => exact ih.cons _
      | directory place => exact ih.cons_cons _

theorem length_split (items : List Item) :
    items.length = (filePlaces items).length + (items.filterMap Item.directory?).length := by
  induction items with
  | nil => simp [filePlaces]
  | cons item rest ih =>
      cases item with
      | file place content =>
          have files : filePlaces (.file place content :: rest) = place :: filePlaces rest := rfl
          rw [files, List.filterMap_cons_none rfl, List.length_cons, List.length_cons, ih]
          omega
      | directory place =>
          have files : filePlaces (.directory place :: rest) = filePlaces rest := rfl
          have directories : (Item.directory place :: rest).filterMap Item.directory? =
              place :: rest.filterMap Item.directory? := rfl
          rw [files, directories, List.length_cons, List.length_cons, ih]
          omega

section met

variable (config : Config) (trees : List Tree)

def met : List Item := visit config config.maxDepth.toNat [] (.directory "" trees)

def metFiles : List Found := (met config trees).filterMap Item.file?

def metDirectories : List (List String) := (met config trees).filterMap Item.directory?

variable {config trees}

theorem mem_met {item : Item} : item ∈ met config trees ↔
    ∃ names tree, Tree.At trees names tree ∧ config.Reaches names ∧ item = itemAt names tree := by
  refine (mem_visit _).trans ⟨?_, ?_⟩
  · rintro ⟨names, tree, found, kept, depth, same⟩
    exact ⟨names, tree, found, ⟨kept, depth⟩, same⟩
  · rintro ⟨names, tree, found, ⟨kept, depth⟩, same⟩
    exact ⟨names, tree, found, kept, depth, same⟩

theorem itemAt_file {names place : List String} {tree : Tree} {content : Except PathFault (List UInt8)} :
    .file place content = itemAt names tree ↔ names = place ∧ ∃ name, tree = .file name content := by
  cases tree <;> simp [itemAt, eq_comm]

theorem itemAt_directory {names place : List String} {tree : Tree} :
    .directory place = itemAt names tree ↔ names = place ∧ tree.isFile = false := by
  cases tree <;> simp [itemAt, Tree.isFile, eq_comm]

theorem mem_metFiles {place : List String} {content : Except PathFault (List UInt8)} :
    (place, content) ∈ metFiles config trees ↔
      (∃ name, Tree.At trees place (.file name content)) ∧ config.Reaches place := by
  simp only [metFiles, List.mem_filterMap, file?_eq_some, exists_eq_right, mem_met, itemAt_file]
  constructor
  · rintro ⟨_, _, found, reaches, rfl, name, rfl⟩
    exact ⟨⟨name, found⟩, reaches⟩
  · rintro ⟨⟨name, found⟩, reaches⟩
    exact ⟨place, _, found, reaches, rfl, name, rfl⟩

theorem mem_metDirectories {place : List String} : place ∈ metDirectories config trees ↔
    (∃ tree, Tree.At trees place tree ∧ tree.isFile = false) ∧ config.Reaches place := by
  simp only [metDirectories, List.mem_filterMap, directory?_eq_some, exists_eq_right, mem_met, itemAt_directory]
  constructor
  · rintro ⟨_, tree, found, reaches, rfl, entered⟩
    exact ⟨⟨tree, found, entered⟩, reaches⟩
  · rintro ⟨⟨tree, found, entered⟩, reaches⟩
    exact ⟨place, tree, found, reaches, rfl, entered⟩

theorem metFiles_places : (metFiles config trees).map (·.1) = filePlaces (met config trees) := file?_places _

theorem metFiles_ordered : ((metFiles config trees).map (·.1)).Pairwise (Tree.Before trees) := by
  rw [metFiles_places]
  refine List.Pairwise.sublist (filePlaces_sublist _) (List.pairwise_map.mpr ?_)
  refine (visit_ordered _).imp fun {one other} ordered => ?_
  obtain ⟨first, second, here, there, before⟩ := ordered
  rw [here, there]
  exact before

theorem ofEntries_sources (root : String) : (ofEntries config root (.ok trees)).sources =
    (metFiles config trees).filterMap fun file =>
      (Dialect.ofFileName? (file.1.getLast?.getD "")).map fun dialect =>
        ⟨⟨file.1.foldl Path.join root, "/".intercalate file.1, dialect⟩, file.2⟩ := by
  change (met config trees).filterMap (source? root) = _
  rw [metFiles, List.filterMap_filterMap]
  refine List.filterMap_congr fun item _ => ?_
  cases item <;> simp only [source?, Item.file?, Option.bind_some, Option.bind_none]

theorem met_length :
    (met config trees).length = (metFiles config trees).length + (metDirectories config trees).length := by
  rw [length_split, ← metFiles_places, List.length_map]
  rfl

theorem ofEntries_stats (root : String) : (ofEntries config root (.ok trees)).stats =
    { files := (metFiles config trees).length
      directories := (metDirectories config trees).length
      extensions := tally ((metFiles config trees).map fun file => extensionOf file.1) } := by
  change statsOf (met config trees) = _
  have directories : ((met config trees).length : Int) - (metFiles config trees).length =
      (metDirectories config trees).length := by
    rw [met_length]
    omega
  rw [statsOf, ← metFiles_places]
  simp only [List.length_map, List.map_map, directories]
  rfl

theorem mem_warnings {root : String} {line : LogLine} : line ∈ (ofEntries config root (.ok trees)).warnings ↔
    ∃ place name reason, Tree.At trees place (.closed name reason) ∧
      (∀ name ∈ place, config.ignores name = false) ∧ place.length ≤ config.maxDepth.toNat ∧
      line = .warning s!"Skipping unreadable directory {place.foldl Path.join root}: {reason}" := by
  change line ∈ (entered config config.maxDepth.toNat [] (.directory "" trees)).filterMap (warning? root) ↔ _
  rw [List.mem_filterMap]
  constructor
  · rintro ⟨⟨place, listing⟩, came, told⟩
    cases listing with
    | ok entries => cases told
    | error reason =>
        rcases (mem_entered _).mp came with ⟨_, same⟩ | ⟨names, tree, found, lists, kept, shallow, rfl⟩
        · cases same
        · obtain ⟨name, rfl⟩ := Tree.listing_error.mp lists
          exact ⟨place, name, reason, found, kept, shallow, (Option.some.inj told).symm⟩
  · rintro ⟨place, name, reason, found, kept, shallow, rfl⟩
    exact ⟨(place, .error reason), (mem_entered _).mpr (Or.inr ⟨place, _, found, rfl, kept, shallow, rfl⟩), rfl⟩

end met

/-- What a walk lists, counts and complains of: the files and the directories that its configuration reaches, and the
closed directories that it would enter. -/
structure Surveys (config : Config) (root : String) (trees : List Tree) (walk : Walk) (files : List Found)
    (directories : List (List String)) : Prop where
  reachedFiles : ∀ place content, (place, content) ∈ files ↔
    (∃ name, Tree.At trees place (.file name content)) ∧ config.Reaches place
  reachedDirectories : ∀ place, place ∈ directories ↔
    (∃ tree, Tree.At trees place tree ∧ tree.isFile = false) ∧ config.Reaches place
  once : (files.map (·.1)).Nodup ∧ directories.Nodup
  ordered : (files.map (·.1)).Pairwise (Tree.Before trees)
  sources : walk.sources = files.filterMap fun file =>
    (Dialect.ofFileName? (file.1.getLast?.getD "")).map fun dialect =>
      ⟨⟨file.1.foldl Path.join root, "/".intercalate file.1, dialect⟩, file.2⟩
  paths : (walk.sources.map (·.source.relativePath)).Nodup
  fileCount : walk.stats.files = files.length
  directoryCount : walk.stats.directories = directories.length
  extensions : walk.stats.extensions =
    ((files.map fun file => extensionOf file.1).eraseDups.map fun text =>
      (text, ((files.map fun file => extensionOf file.1).count text : Int)))
  total : (walk.stats.extensions.map (·.2)).sum = walk.stats.files
  warned : ∀ line, line ∈ walk.warnings ↔ ∃ place name reason, Tree.At trees place (.closed name reason) ∧
    (∀ name ∈ place, config.ignores name = false) ∧ place.length ≤ config.maxDepth.toNat ∧
    line = .warning s!"Skipping unreadable directory {place.foldl Path.join root}: {reason}"

theorem met_surveys (config : Config) (root : String) {trees : List Tree} (listed : Tree.WellListed trees) :
    Surveys config root trees (ofEntries config root (.ok trees)) (metFiles config trees)
      (metDirectories config trees) := by
  have distinct : ((met config trees).map Item.place).Nodup := places_distinct listed _ _ _
  have stats : (ofEntries config root (.ok trees)).stats = _ := ofEntries_stats root
  exact
    { reachedFiles := fun place content => mem_metFiles
      reachedDirectories := fun place => mem_metDirectories
      once := by
        rw [metFiles_places]
        exact ⟨distinct.sublist (filePlaces_sublist _), distinct.sublist (directories_sublist _)⟩
      ordered := metFiles_ordered
      sources := ofEntries_sources root
      paths := by
        refine ofEntries_paths_nodup config root _ ?_
        intro others same
        rwa [← Except.ok.inj same]
      fileCount := by rw [stats]
      directoryCount := by rw [stats]
      extensions := by
        rw [stats]
        exact tally_eq _
      total := by
        rw [stats]
        exact (tally_sum _).trans (by rw [List.length_map])
      warned := fun line => mem_warnings }

/-- The places and their order leave no choice: two surveys of a tree list the same. -/
theorem Surveys.files_unique {config : Config} {root : String} {trees : List Tree} {walk again : Walk}
    {files others : List Found} {directories more : List (List String)} (listed : Tree.WellListed trees)
    (one : Surveys config root trees walk files directories)
    (other : Surveys config root trees again others more) : files = others := by
  have same : files.Perm others := by
    refine (List.perm_ext_iff_of_nodup (one.once.1.of_map _) (other.once.1.of_map _)).mpr ?_
    rintro ⟨place, content⟩
    rw [one.reachedFiles, other.reachedFiles]
  refine same.eq_of_pairwise ?_ (List.pairwise_map.mp one.ordered) (List.pairwise_map.mp other.ordered)
  intro first second _ _ before after
  exact absurd after (before.asymm listed)

/-- A walk lists the source files among the files that it reaches, in the order of the listings, and counts all of
these and the directories. -/
theorem ofEntries_surveys (config : Config) (root : String) {trees : List Tree} (listed : Tree.WellListed trees) :
    ∃ files directories, Surveys config root trees (ofEntries config root (.ok trees)) files directories :=
  ⟨_, _, met_surveys config root listed⟩

theorem ofEntries_surveys_hidden :
    let content : Except PathFault (List UInt8) := .ok []
    let trees := [Tree.file "main.py" (.error .missing), .file ".env" content,
      .directory ".git" [.file "a.py" content], .file "Makefile" content, .linked "docs",
      .closed "secret" "Permission denied",
      .directory "lib" [.directory "inner" [.file "deep.py" content], .file "m.PY" content]]
    Tree.WellListed trees ∧ ∃ files directories,
      Surveys { maxDepth := 1 } "/src" trees (ofEntries { maxDepth := 1 } "/src" (.ok trees)) files directories := by
  intro content trees
  have listed : Tree.WellListed trees := by
    simp [trees, Tree.WellListed, Tree.WellNamed, Tree.name]
  exact ⟨listed, ofEntries_surveys { maxDepth := 1 } "/src" listed⟩

/-! A walk sorts nothing: its places follow an order of names only where each directory is listed in that order. -/

inductive ListedBy (order : String → String → Prop) : List Tree → Prop where
  | mk {entries : List Tree} (names : (entries.map Tree.name).Pairwise order)
      (inner : ∀ name more, .directory name more ∈ entries → ListedBy order more) : ListedBy order entries

inductive Ahead (order : String → String → Prop) : List String → List String → Prop where
  | beside {first second : String} (names : order first second) : Ahead order [first] [second]
  | above (first second : String) {rest : List String} (deeper : rest ≠ []) : Ahead order [first] (second :: rest)
  | apart {first second : String} {front back : List String} (names : order first second) (given : front ≠ [])
      (more : back ≠ []) : Ahead order (first :: front) (second :: back)
  | within {name : String} {front back : List String} (ahead : Ahead order front back) :
      Ahead order (name :: front) (name :: back)

theorem Ahead.beside_names {order : String → String → Prop} {first second : String}
    (ahead : Ahead order [first] [second]) : order first second := by
  cases ahead with
  | beside names => exact names
  | above _ _ deeper => exact absurd rfl deeper
  | apart _ given _ => exact absurd rfl given
  | within ahead => cases ahead

theorem ahead_of_before {order : String → String → Prop} {entries : List Tree} {first second : List String}
    (before : Tree.Before entries first second) (sorted : ListedBy order entries) : Ahead order first second := by
  induction before with
  | beside names =>
      obtain ⟨listed, _⟩ := sorted
      exact .beside (List.pairwise_pair.mp (listed.sublist names))
  | above entries first second deeper => exact .above first second deeper
  | apart names given more =>
      obtain ⟨listed, _⟩ := sorted
      exact .apart (List.pairwise_pair.mp (listed.sublist names)) given more
  | within member before ih =>
      obtain ⟨_, inner⟩ := sorted
      exact .within (ih (inner _ _ member))

theorem Surveys.sorted {config : Config} {root : String} {trees : List Tree} {walk : Walk} {files : List Found}
    {directories : List (List String)} (surveys : Surveys config root trees walk files directories)
    {order : String → String → Prop} (sorted : ListedBy order trees) : (files.map (·.1)).Pairwise (Ahead order) :=
  surveys.ordered.imp fun before => ahead_of_before before sorted

/-- Files and directories that are not listed by name, and a link that leads to no file. -/
def unsorted : List Tree :=
  [.file "b.py" (.ok []), .file "a.py" (.ok []),
    FileSystem.seenThrough "lost.py" (.ok (.vacant ["src", "nowhere"])),
    .directory "zz" [.file "k.py" (.ok [])], .directory "dd" [.file "k.py" (.ok [])]]

theorem ofEntries_unsorted :
    let walk := ofEntries {} "/src" (.ok unsorted)
    let byName := fun first second : String => Text.before first.toList second.toList = true
    Tree.WellListed unsorted ∧
      walk.sources.map (·.source.relativePath) = ["b.py", "a.py", "lost.py", "zz/k.py", "dd/k.py"] ∧
      walk.stats.files = 5 ∧ ∀ files directories, Surveys {} "/src" unsorted walk files directories →
        ¬ (files.map (·.1)).Pairwise (Ahead byName) := by
  have listed : Tree.WellListed unsorted := by
    simp [unsorted, FileSystem.seenThrough, Tree.WellListed, Tree.WellNamed, Tree.name]
  refine ⟨listed, by decide +kernel, by decide +kernel, ?_⟩
  intro files directories surveys sorted
  have places : files.map (·.1) = [["b.py"], ["a.py"], ["lost.py"], ["zz", "k.py"], ["dd", "k.py"]] := by
    rw [surveys.files_unique listed (met_surveys {} "/src" listed)]
    decide +kernel
  rw [places, List.pairwise_cons] at sorted
  exact absurd (sorted.1 ["a.py"] List.mem_cons_self).beside_names (by decide)

end Walk

end FlowAtlas
