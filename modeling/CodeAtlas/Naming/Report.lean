/-
# Naming.Report -- naming suggestions as a Markdown document

The similar names come first, each with its reason and the confidence; then the suggested
hierarchies, under a heading for each parent in order of first mention.
-/
import CodeAtlas.Naming.Suggestion

namespace CodeAtlas.Naming

set_option autoImplicit false

namespace Analysis

/-- The line that opens a suggestion. -/
def headline (s : Suggestion) : Text :=
  "- **" ++ s.current ++ "** → **" ++ s.suggested ++ "**"

def similarLines (s : Suggestion) : List Text :=
  [headline s, "  - " ++ s.reason, "  - Confidence: " ++ Number.showPercent s.confidence, []]

/-- The first segment of the suggested name. -/
def parentOf (s : Suggestion) : Text := Text.trim (Text.cut Hierarchy.delimiter s.suggested).1

/-- The suggestions below each parent. -/
def byParent (suggestions : List Suggestion) : Entries (List Suggestion) :=
  suggestions.foldl (fun e s => Entries.push e (parentOf s) s) []

def parentLines (parent : Text) (suggestions : List Suggestion) : List Text :=
  ["### " ++ parent, []] ++ suggestions.map headline ++ [[]]

def report (a : Analysis) : Text :=
  let similar : List Text :=
    if a.similar.isEmpty then []
    else ["## Similar Names (Consolidation Suggested)".toList, []] ++ a.similar.flatMap similarLines
  let hierarchies : List Text :=
    if a.hierarchies.isEmpty then []
    else ["## Hierarchy Suggestions".toList, []] ++
      (byParent a.hierarchies).flatMap fun e => parentLines e.1 e.2
  let nothing : List Text :=
    if a.all.isEmpty then
      ["✅ No pattern issues found. Your group naming is consistent!".toList, []]
    else []
  Text.join "\n"
    (["# Code Group Pattern Analysis".toList, []] ++ similar ++ hierarchies ++ nothing)

end Analysis

end CodeAtlas.Naming
