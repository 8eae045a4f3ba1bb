import FlowAtlas.Proofs.Diagram.Drawn
import FlowAtlas.Service.Prompt
import Mathlib

namespace FlowAtlas

theorem Pattern.searchFrom_here {pattern : Pattern} {behind s : List Char} {found : Match}
    (matched : pattern.matchAt? behind s = some found) : pattern.searchFrom behind s = some found := by
  cases s with
  | nil => exact matched
  | cons c rest => rw [searchFrom, matched]

namespace Text

theorem mem_insertBy {α : Type} {name : α → String} {item other : α} {items : List α}
    (member : other ∈ insertBy name item items) : other = item ∨ other ∈ items := by
  induction items with
  | nil => exact List.mem_cons.mp member
  | cons next rest ih =>
      rw [insertBy] at member
      split at member
      · rcases List.mem_cons.mp member with rfl | later
        · exact Or.inr List.mem_cons_self
        · exact (ih later).imp_right (List.mem_cons_of_mem _)
      · exact List.mem_cons.mp member

theorem mem_sortBy {α : Type} {name : α → String} {other : α} {items : List α} (member : other ∈ sortBy name items) :
    other ∈ items := by
  induction items with
  | nil => exact member
  | cons item rest ih =>
      rcases mem_insertBy member with rfl | later
      · exact List.mem_cons_self
      · exact List.mem_cons_of_mem _ (ih later)

end Text

open Text

namespace Flowchart

open Pattern

section reading

variable {before body : List Char}

theorem matchAt_other {c : Char} (other : c ≠ '\x60') (behind rest : List Char) :
    opened.matchAt? behind (c :: rest) = none := by
  simp [matchAt?, opened, fence, literal, inOrder, places, Pattern.char, other]

theorem matchAt_fence (behind rest : List Char) :
    (opened.matchAt? behind ("```mermaid\nflowchart TD".toList ++ rest)).map
      (fun found => (found.subject, found.afterSubject)) = some ("flowchart TD".toList, rest) := by
  cbv

theorem searchFrom_append (clean : '\x60' ∉ before) (rest : List Char) : ∀ behind : List Char,
    opened.searchFrom behind (before ++ rest) = opened.searchFrom (before.reverse ++ behind) rest := by
  induction before with
  | nil => exact fun _ => rfl
  | cons c more ih =>
      obtain ⟨other, others⟩ := List.ne_and_not_mem_of_not_mem_cons clean
      intro behind
      rw [List.cons_append, searchFrom, matchAt_other other.symm]
      simpa using ih others (c :: behind)

theorem betweenFences_append (clean : '\x60' ∉ before) (plain : '\x60' ∉ body) (behind : List Char) :
    betweenFences? (before ++ ("```mermaid\nflowchart TD".toList ++ (body ++ (fence.toList ++ behind)))) =
      some ("flowchart TD".toList ++ body) := by
  let rest := body ++ (fence.toList ++ behind)
  obtain ⟨found, matched, parts⟩ := Option.map_eq_some_iff.mp (matchAt_fence before.reverse rest)
  obtain ⟨subject, after⟩ := Prod.mk.inj parts
  have searched : opened.search? (before ++ ("```mermaid\nflowchart TD".toList ++ rest)) = some found := by
    rw [search?, searchFrom_append clean, List.append_nil]
    exact searchFrom_here matched
  have cut : Text.cutAt fence.toList found.afterSubject = some (body, behind) := by
    rw [after]
    exact cutAt_append plain behind
  rw [betweenFences?, searched]
  dsimp only [Option.bind_eq_bind, Option.bind_some]
  rw [cut, subject]
  rfl

theorem ofReply_between {diagram : Diagram} (drawn : Without '\x60' diagram.render) {before : String}
    (clean : Without '\x60' before) (behind : String) :
    ofReply? (before ++ "```mermaid\n" ++ diagram.render ++ "```" ++ behind) = some diagram.render := by
  obtain ⟨body, solid, split⟩ := diagram.render_split
  have plain : '\x60' ∉ body ++ ['\n'] := by
    rw [Without, split] at drawn
    exact fun member => drawn (List.mem_append_right _ member)
  have reply : (before ++ "```mermaid\n" ++ diagram.render ++ "```" ++ behind).toList = before.toList ++
      ("```mermaid\nflowchart TD".toList ++ ((body ++ ['\n']) ++ (fence.toList ++ behind.toList))) := by
    simp [split, fence]
  have whole : "flowchart TD".toList ++ (body ++ ['\n']) = ("flowchart TD".toList ++ body) ++ ['\n'] :=
    (List.append_assoc _ _ _).symm
  have blank : ∀ c ∈ ['\n'], isBlank c = true := List.forall_mem_singleton.mpr (by decide)
  have trimmed : Text.trim ("flowchart TD".toList ++ (body ++ ['\n'])) = "flowchart TD".toList ++ body := by
    rw [whole, trim_append_blank blank]
    exact trim_solid ⟨'f', rfl, by decide⟩ (endsSolid_append _ solid)
  rw [ofReply?, reply, betweenFences_append clean plain, Option.some_or, Option.map_some, trimmed, ← whole, ← split,
    String.ofList_toList]

end reading

end Flowchart

section question

def Summary.told (summary : Summary) : List String :=
  summary.stats.extensions.map (·.1) ++ summary.important.flatMap (fun brief => [brief.name, brief.file]) ++
    summary.highlights ++ summary.layerCounts.map (·.1)

namespace Prompt

theorem number_without (n : Int) : Without '\x60' n.repr := without_int rfl (by decide) n

theorem listed_without {none : String} {lines : List String} (nothing : Without '\x60' none)
    (clean : ∀ line ∈ lines, Without '\x60' line) : Without '\x60' (listed none lines) := by
  rw [listed]
  split
  · exact nothing
  · exact without_intercalate (by decide) clean

theorem routineLine_without {brief : Brief} (name : Without '\x60' brief.name) (file : Without '\x60' brief.file) :
    Without '\x60' (routineLine brief) := by
  have marks : ∀ mark ∈ ["- ", " (importance: ", ") [", "] in ", " (ENTRY)", ""], Without '\x60' mark := by decide
  have kind : Without '\x60' brief.kind.label := by
    cases brief.kind <;> decide
  have entry : Without '\x60' (if brief.entryPoint then " (ENTRY)" else "") := by
    split <;> simp [marks]
  simp [routineLine, name, file, kind, entry, marks, number_without]

theorem fileTypes_without {stats : TreeStats} (clean : ∀ entry ∈ stats.extensions, Without '\x60' entry.1) :
    Without '\x60' (fileTypes stats) := by
  have blank : Without '\x60' " " := by decide
  rw [fileTypes]
  split
  · decide
  · refine without_intercalate (by decide) fun text member => ?_
    obtain ⟨entry, among, rfl⟩ := List.mem_map.mp member
    simp [clean entry (mem_sortBy among), number_without, blank]

variable {summary : Summary} (clean : ∀ text ∈ summary.told, Without '\x60' text)

include clean

theorem facts_without : ∀ line ∈ facts summary, Without '\x60' line := by
  have marks : ∀ mark ∈ ["ANALYSIS:", "- Source files: ", "- Functions: ", "- Classes: ", "- Files in repository: ",
      "- Directories: ", "- Lines of source: ", "- File types: ", ""], Without '\x60' mark := by decide
  have types : Without '\x60' (fileTypes summary.stats) := by
    refine fileTypes_without fun entry member => clean _ ?_
    exact List.mem_append_left _ (List.mem_append_left _ (List.mem_append_left _ (List.mem_map_of_mem member)))
  simp [facts, marks, types, number_without]

theorem lists_without : ∀ line ∈ lists summary, Without '\x60' line := by
  have headings : ∀ line ∈ ["KEY FUNCTIONS:", "", "DECISION POINTS:", "ARCHITECTURAL LAYERS:", "- ", ": ", " functions"],
      Without '\x60' line := by decide
  have nothing : Without '\x60' noneDetected := by decide
  have routines : ∀ line ∈ (summary.important.take routineCount).map routineLine, Without '\x60' line := by
    intro line member
    obtain ⟨brief, among, rfl⟩ := List.mem_map.mp member
    have told : ∀ text ∈ [brief.name, brief.file], text ∈ summary.told := by
      intro text held
      exact List.mem_append_left _ (List.mem_append_left _ (List.mem_append_right _
        (List.mem_flatMap.mpr ⟨brief, List.mem_of_mem_take among, held⟩)))
    exact routineLine_without (clean _ (told _ (by simp))) (clean _ (told _ (by simp)))
  have decisions : ∀ line ∈ summary.highlights.map ("- " ++ ·), Without '\x60' line := by
    intro line member
    obtain ⟨highlight, among, rfl⟩ := List.mem_map.mp member
    have told : highlight ∈ summary.told := List.mem_append_left _ (List.mem_append_right _ among)
    simp [headings, clean _ told]
  have layers : ∀ line ∈ summary.inhabited.map (fun entry => s!"- {entry.1}: {entry.2} functions"),
      Without '\x60' line := by
    intro line member
    obtain ⟨entry, among, rfl⟩ := List.mem_map.mp member
    have told : entry.1 ∈ summary.told :=
      List.mem_append_right _ (List.mem_map_of_mem (List.mem_of_mem_filter among))
    simp [headings, clean _ told, number_without]
  intro line member
  simp only [lists, List.mem_cons, List.not_mem_nil, or_false] at member
  rcases member with rfl | rfl | rfl | rfl | rfl | rfl | rfl | rfl | rfl
  · exact headings _ (by simp)
  · exact listed_without nothing routines
  · exact headings _ (by simp)
  · exact headings _ (by simp)
  · exact listed_without nothing decisions
  · exact headings _ (by simp)
  · exact headings _ (by simp)
  · exact listed_without nothing layers
  · exact headings _ (by simp)

def beforeFence (summary : Summary) : List String := task ++ facts summary ++ lists summary ++ ["CURRENT DIAGRAM:"]

theorem beforeFence_without : ∀ line ∈ beforeFence summary, Without '\x60' line := by
  have opening : ∀ line ∈ task, Without '\x60' line := by decide +kernel
  have heading : ∀ line ∈ ["CURRENT DIAGRAM:"], Without '\x60' line := by decide
  intro line member
  rw [beforeFence, List.append_assoc, List.append_assoc] at member
  rcases List.mem_append.mp member with first | member
  · exact opening line first
  · rcases List.mem_append.mp member with fact | member
    · exact facts_without clean line fact
    · rcases List.mem_append.mp member with listed | last
      · exact lists_without clean line listed
      · exact heading line last

/-- The question holds the text of the diagram between fences, and no back quote before them. -/
theorem prompt_split (diagram : Diagram) : ∃ before behind, Without '\x60' before ∧
    summary.prompt diagram.render = before ++ "```mermaid\n" ++ diagram.render ++ "```" ++ behind := by
  obtain ⟨body, solid, split⟩ := diagram.render_split
  have blank : ∀ c ∈ ['\n'], isBlank c = true := List.forall_mem_singleton.mpr (by decide)
  -- The line feed that is trimmed away comes back in front of the fence.
  have trimmed : String.ofList (trimEnd diagram.render.toList) ++ "\n" = diagram.render := by
    apply String.toList_inj.mp
    rw [String.toList_append, String.toList_ofList, split, ← List.append_assoc, trimEnd_append_blank blank,
      trimEnd_solid (endsSolid_append _ solid)]
    rfl
  let told := beforeFence summary
  let request := "Return ONLY the improved Mermaid flowchart in a " ++ Flowchart.fence ++ "mermaid code block."
  let fenced := [Flowchart.fence ++ "mermaid", String.ofList (trimEnd diagram.render.toList), Flowchart.fence, "", request]
  have parts : summary.prompt diagram.render = "\n".intercalate (told ++ fenced) :=
    congrArg ("\n".intercalate ·) (List.append_assoc _ ["CURRENT DIAGRAM:"] fenced).symm
  have joined := String.intercalate_append_of_ne_nil (s := "\n") (l := told) (m := fenced) (by simp [told, beforeFence])
    (List.cons_ne_nil _ _)
  have between : "\n".intercalate fenced = "```mermaid\n" ++ diagram.render ++ "```" ++ ("\n\n" ++ request) := by
    rw [← trimmed]
    apply String.toList_inj.mp
    simp [fenced, Flowchart.fence]
  refine ⟨"\n".intercalate told ++ "\n", "\n\n" ++ request, ?_, ?_⟩
  · exact without_append.mpr ⟨without_intercalate (by decide) (beforeFence_without clean), by decide⟩
  · rw [parts, joined, between]
    simp only [String.append_assoc]

end Prompt

end question

end FlowAtlas
