import FlowAtlas.Analysis.Summary
import FlowAtlas.Service.Flowchart
import FlowAtlas.Text.Order

namespace FlowAtlas

namespace Prompt

def routineCount : Nat := 8

def routineLine (brief : Brief) : String :=
  s!"- {brief.name} (importance: {brief.importance}) [{brief.kind.label}] in {brief.file}" ++
    (if brief.entryPoint then " (ENTRY)" else "")

def listed (none : String) (lines : List String) : String :=
  let text := "\n".intercalate lines
  if text.isEmpty then none else text

def noneDetected : String := "- none detected"

def fileTypes (stats : TreeStats) : String :=
  let types := ", ".intercalate ((Text.sortBy (·.1) stats.extensions).map fun entry => s!"{entry.1} {entry.2}")
  if types.isEmpty then "none" else types

def task : List String :=
  ["Create a clean flowchart of the code execution flow and architecture.", "", "REQUIREMENTS:",
   "1. Use 'flowchart TD' syntax", "2. Text labels only, no icons or emojis", "3. Monotone gray styling",
   "4. Square subgraphs for architectural layers", "5. Focus on logic flow and decision points",
   "6. Include only the most important functions (at most 12)", ""]

def facts (summary : Summary) : List String :=
  ["ANALYSIS:", s!"- Source files: {summary.files}", s!"- Functions: {summary.routines}",
   s!"- Classes: {summary.classes}", s!"- Files in repository: {summary.stats.files}",
   s!"- Directories: {summary.stats.directories}", s!"- Lines of source: {summary.stats.lines}",
   s!"- File types: {fileTypes summary.stats}", ""]

def lists (summary : Summary) : List String :=
  ["KEY FUNCTIONS:", listed noneDetected ((summary.important.take routineCount).map routineLine), "",
   "DECISION POINTS:", listed noneDetected (summary.highlights.map ("- " ++ ·)), "",
   "ARCHITECTURAL LAYERS:",
   listed noneDetected (summary.inhabited.map fun entry => s!"- {entry.1}: {entry.2} functions"), ""]

def drawing (diagram : String) : List String :=
  ["CURRENT DIAGRAM:", Flowchart.fence ++ "mermaid", String.ofList (Text.trimEnd diagram.toList),
   Flowchart.fence, "",
   "Return ONLY the improved Mermaid flowchart in a " ++ Flowchart.fence ++ "mermaid code block."]

end Prompt

def Summary.prompt (summary : Summary) (diagram : String) : String :=
  "\n".intercalate (Prompt.task ++ Prompt.facts summary ++ Prompt.lists summary ++ Prompt.drawing diagram)

end FlowAtlas
