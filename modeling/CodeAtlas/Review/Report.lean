/-
# Review.Report -- issues as a Markdown document

The issues are put under a heading for each kind, the kinds in order of first mention.  An issue
is shown with its message and suggestion, with the names it affects if there are two or more, and
with those of its figures that are there and not zero.  A similarity that has no percentage is a
fault.
-/
import CodeAtlas.Number.Percent
import CodeAtlas.Review.Issue

namespace CodeAtlas.Review

set_option autoImplicit false

/-- A count under its label, unless it is zero or missing. -/
def countPart (label : Text) (n : Option Int) : List Text :=
  match n with
  | some n => if n == 0 then [] else [label ++ ": " ++ Number.showInt n]
  | none => []

namespace Metrics

/-- A similarity in per cent. -/
def percentage (x : Float) : Except Fault Int :=
  match Number.percent? x with
  | some n => .ok n
  | none => .error (if x.isNaN then .nanAsInteger else .tooLarge)

def similarityPart (similarity : Option Float) : Except Fault (List Text) :=
  match similarity.filter (fun x => !(x == 0.0)) with
  | some x => (percentage x).map fun n => ["Similarity: " ++ Number.showInt n ++ "%"]
  | none => .ok []

/-- The figures of an issue as text. -/
def shown (m : Metrics) : Except Fault Text :=
  (similarityPart m.similarity).map fun similarity =>
    Text.join ", " (similarity ++ countPart "Usage" m.uses ++ countPart "Files" m.files ++
      countPart "Lines" m.lines)

end Metrics

/-- The lines of one issue. -/
def issueLines (i : Issue) : Except Fault (List Text) :=
  i.metrics.shown.map fun shown =>
    let affected : List Text :=
      if 1 < i.affected.length then ["- **Affected Groups**: " ++ Text.join ", " i.affected]
      else []
    let metrics : List Text := if shown.isEmpty then [] else ["- **Metrics**: " ++ shown]
    ["### " ++ i.group, "- **Message**: " ++ i.message, "- **Suggestion**: " ++ i.suggestion] ++
      affected ++ metrics ++ [[]]

/-- The kinds of the issues, each once. -/
def kinds (issues : List Issue) : List Kind := Text.distinct (issues.map (·.kind))

/-- The lines for one kind. -/
def kindLines (issues : List Issue) (k : Kind) : Except Fault (List Text) :=
  let own := issues.filter (·.kind == k)
  (own.mapM issueLines).map fun lines =>
    ["## " ++ k.heading ++ " (" ++ Number.showNat own.length ++ ")", []] ++ lines.flatten

def report (issues : List Issue) : Except Fault Text :=
  ((kinds issues).mapM (kindLines issues)).map fun lines =>
    Text.join "\n"
      (["# Group Refactoring Analysis Report".toList, [],
        "Total Issues Found: " ++ Number.showNat issues.length, []] ++ lines.flatten)

end CodeAtlas.Review
