import FlowAtlas.Table
import Mathlib.Algebra.Ring.Int.Defs
import Mathlib.Data.List.Nodup

namespace FlowAtlas.Table

variable {α : Type} {key other : String} {value : α} {table : Table α}

theorem keys_cons (entry : String × α) (rest : Table α) : keys (entry :: rest) = entry.1 :: keys rest := rfl

theorem keys_append (first second : Table α) : keys (first ++ second) = first.keys ++ second.keys :=
  List.map_append

theorem get?_cons (entry : String × α) (rest : Table α) :
    get? (entry :: rest) key = if key = entry.1 then some entry.2 else get? rest key := by
  obtain ⟨held, value⟩ := entry
  by_cases same : key = held
  · simp [get?, same]
  · have apart : (key == held) = false := by simpa using same
    simp [get?, List.lookup_cons, apart, same]

theorem has_iff : table.has key = true ↔ key ∈ table.keys := by
  simp [has, keys]

theorem mem_keys : key ∈ table.keys ↔ ∃ value, (key, value) ∈ table := by
  simp [keys]

theorem get?_eq_none_iff : table.get? key = none ↔ key ∉ table.keys := by
  induction table with
  | nil => simp [keys, get?]
  | cons entry rest ih =>
      rw [get?_cons, keys_cons, List.mem_cons]
      by_cases same : key = entry.1
      · simp [same]
      · simp [same, ih]

theorem mem_of_get? (found : table.get? key = some value) : (key, value) ∈ table := by
  obtain ⟨front, rest, rfl, -⟩ := List.lookup_eq_some_iff.mp found
  exact List.mem_append_right _ List.mem_cons_self

theorem get?_eq_some_iff (distinct : table.keys.Nodup) : table.get? key = some value ↔ (key, value) ∈ table := by
  induction table with
  | nil => simp [get?]
  | cons entry rest ih =>
      rw [keys_cons, List.nodup_cons] at distinct
      obtain ⟨fresh, others⟩ := distinct
      rw [get?_cons, List.mem_cons]
      by_cases same : key = entry.1
      · have unlisted : (key, value) ∉ rest := by
          intro member
          apply fresh
          rw [← same]
          exact mem_keys.mpr ⟨value, member⟩
        rw [if_pos same, or_iff_left unlisted, Option.some.injEq, Prod.ext_iff]
        exact ⟨fun equal => ⟨same, equal.symm⟩, fun equal => equal.2.symm⟩
      · have apart : (key, value) ≠ entry := fun equal => same (congrArg Prod.fst equal)
        rw [if_neg same, ih others, or_iff_right apart]

theorem keys_put : (table.put key value).keys = if key ∈ table.keys then table.keys else table.keys ++ [key] := by
  induction table with
  | nil => simp [put, keys]
  | cons entry rest ih =>
      rw [put]
      by_cases same : entry.1 = key
      · simp [keys_cons, same]
      · have apart : ¬ key = entry.1 := fun equal => same equal.symm
        simp only [beq_iff_eq, same, if_false, keys_cons, ih, List.mem_cons, apart, false_or]
        split <;> rfl

theorem get?_put : (table.put key value).get? other = if other = key then some value else table.get? other := by
  induction table with
  | nil => simp [put, get?_cons]
  | cons entry rest ih =>
      rw [put]
      by_cases same : entry.1 = key
      · by_cases here : other = key <;> simp [get?_cons, same, here]
      · by_cases here : other = entry.1
        · simp [get?_cons, same, here]
        · simp [get?_cons, same, here, ih]

theorem put_of_notMem (fresh : key ∉ table.keys) : table.put key value = table ++ [(key, value)] := by
  induction table with
  | nil => rfl
  | cons entry rest ih =>
      rw [keys_cons, List.mem_cons, not_or] at fresh
      have apart : (entry.1 == key) = false := by simpa using Ne.symm fresh.1
      simp only [put, apart, Bool.false_eq_true, if_false, List.cons_append, List.cons.injEq, true_and]
      exact ih fresh.2

theorem put_append {old : α} {front rest : Table α} (fresh : key ∉ front.keys) :
    put key value (front ++ (key, old) :: rest) = front ++ (key, value) :: rest := by
  induction front with
  | nil => simp [put]
  | cons entry front ih =>
      rw [keys_cons, List.mem_cons, not_or] at fresh
      have apart : (entry.1 == key) = false := by simpa using Ne.symm fresh.1
      simp only [List.cons_append, put, apart, Bool.false_eq_true, if_false, List.cons.injEq, true_and]
      exact ih fresh.2

theorem mem_put {entry : String × α} (member : entry ∈ table.put key value) : entry = (key, value) ∨ entry ∈ table := by
  induction table with
  | nil => exact Or.inl (List.mem_singleton.mp member)
  | cons first rest ih =>
      rw [put] at member
      split at member
      · rcases List.mem_cons.mp member with same | member
        · exact Or.inl same
        · exact Or.inr (List.mem_cons_of_mem _ member)
      · rcases List.mem_cons.mp member with same | member
        · exact Or.inr (same ▸ List.mem_cons_self)
        · exact (ih member).imp_right (List.mem_cons_of_mem _)

theorem put_of_mem (held : key ∈ table.keys) (distinct : table.keys.Nodup) :
    table.put key value = table.map fun entry => if entry.1 = key then (entry.1, value) else entry := by
  obtain ⟨entry, member, rfl⟩ := List.mem_map.mp held
  obtain ⟨front, rest, rfl⟩ := List.append_of_mem member
  rw [keys_append, keys_cons] at distinct
  obtain ⟨-, behind, apart⟩ := List.nodup_append.mp distinct
  have before : ∀ other ∈ front, other.1 ≠ entry.1 := fun other among =>
    apart _ (List.mem_map_of_mem among) _ List.mem_cons_self
  have after : ∀ other ∈ rest, other.1 ≠ entry.1 := fun other among same =>
    (List.nodup_cons.mp behind).1 (same ▸ List.mem_map_of_mem among)
  have kept : ∀ entries : Table α, (∀ other ∈ entries, other.1 ≠ entry.1) →
      (entries.map fun other => if other.1 = entry.1 then (other.1, value) else other) = entries := by
    intro entries others
    conv_rhs => rw [← List.map_id entries]
    exact List.map_congr_left fun other among => if_neg (others other among)
  rw [List.map_append, List.map_cons, kept front before, kept rest after, if_pos rfl]
  refine put_append fun among => ?_
  obtain ⟨other, inside, same⟩ := List.mem_map.mp among
  exact before other inside same

theorem foldl_put (entries : Table α) : ∀ front table : Table α, table.keys = entries.keys →
    (front.keys ++ entries.keys).Nodup →
      entries.foldl (fun table entry => table.put entry.1 entry.2) (front ++ table) = front ++ entries := by
  induction entries with
  | nil =>
      intro front table same _
      rw [List.map_eq_nil_iff.mp same]
      rfl
  | cons entry entries ih =>
      intro front table same distinct
      cases table with
      | nil => cases same
      | cons first rest =>
          obtain ⟨key, old⟩ := first
          obtain ⟨rfl, others⟩ := List.cons.inj same
          have fresh : entry.1 ∉ front.keys := by
            intro held
            exact (List.nodup_append.mp distinct).2.2 _ held _ List.mem_cons_self rfl
          have moved : (keys (front ++ [entry]) ++ keys entries).Nodup := by
            rw [keys_append, List.append_assoc]
            exact distinct
          have later := ih (front ++ [entry]) rest others moved
          rw [List.append_assoc, List.append_assoc] at later
          rw [List.foldl_cons, put_append fresh]
          exact later

theorem putNew_of_mem (held : key ∈ table.keys) : table.putNew key value = table := by
  simp [putNew, has_iff, held]

theorem putNew_of_notMem (fresh : key ∉ table.keys) : table.putNew key value = table ++ [(key, value)] := by
  simp [putNew, has_iff, fresh]

theorem get?_append (first second : Table α) : get? (first ++ second) key = (first.get? key).or (second.get? key) :=
  List.lookup_append

theorem get?_map_of_mem {keys : List String} (known : key ∈ keys) (make : String → α) :
    get? (keys.map fun key => (key, make key)) key = some (make key) := by
  induction keys with
  | nil => cases known
  | cons first rest ih =>
      rw [List.map_cons, get?_cons]
      by_cases same : key = first
      · rw [if_pos same, same]
      · rw [if_neg same]
        exact ih ((List.mem_cons.mp known).resolve_left same)

theorem keys_adjust (change : α → α) : (table.adjust key change).keys = table.keys := by
  simp only [adjust, keys, List.map_map]
  refine List.map_congr_left fun entry _ => ?_
  simp only [Function.comp_apply]
  split <;> rfl

theorem get?_adjust (change : α → α) :
    (table.adjust key change).get? other = (table.get? other).map (if other = key then change else id) := by
  induction table with
  | nil => rfl
  | cons entry rest ih =>
      have next : adjust key change (entry :: rest) =
          (if entry.1 == key then (entry.1, change entry.2) else entry) :: adjust key change rest := rfl
      rw [next, get?_cons, get?_cons, ih]
      by_cases here : other = entry.1
      · by_cases same : entry.1 = key <;> simp [here, same]
      · by_cases same : entry.1 = key
        · have apart : ¬ other = key := fun equal => here (equal.trans same.symm)
          simp [same, apart]
        · simp [here, same]

theorem eq_map_keys (absent : α) (distinct : table.keys.Nodup) :
    table = table.keys.map fun key => (key, (table.get? key).getD absent) := by
  induction table with
  | nil => rfl
  | cons entry rest ih =>
      obtain ⟨fresh, others⟩ := List.nodup_cons.mp distinct
      rw [keys_cons, List.map_cons, get?_cons, if_pos rfl, Option.getD_some]
      congr 1
      refine (ih others).trans (List.map_congr_left fun key member => ?_)
      rw [get?_cons, if_neg]
      rintro rfl
      exact fresh member

theorem sum_put {counts : Table Int} {count : Int} :
    ((counts.put key count).map (·.2)).sum = (counts.map (·.2)).sum - (counts.get? key).getD 0 + count := by
  induction counts with
  | nil => simp [put, get?]
  | cons entry rest ih =>
      rw [put, get?_cons]
      by_cases same : entry.1 = key
      · rw [if_pos (by simpa using same), if_pos same.symm]
        simp only [List.map_cons, List.sum_cons, Option.getD_some]
        omega
      · rw [if_neg (by simpa using same), if_neg (Ne.symm same)]
        simp only [List.map_cons, List.sum_cons, ih]
        omega

end FlowAtlas.Table
