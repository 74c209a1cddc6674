/-
# Scan.Document -- the annotations of a document

A document is a list of lines, numbered from 1.  It is read in one pass from top to bottom.  A
line whose comment holds an annotation is a *finding*; when the comment is all of its line, the
lines captured after it belong to the finding and are passed over, so nothing inside them is
looked at again.

`Reader.step` is what one line does: the annotation it holds, if any, and how many of the lines
after it are captured.  `Reader.findings` repeats it, and ends because every step leaves fewer
lines.  `Reader.asks` follows the same steps and says whether the additional patterns were needed
at all.
-/
import CodeAtlas.Group
import CodeAtlas.Language.Descriptor
import CodeAtlas.Scan.Annotation

namespace CodeAtlas.Scan

set_option autoImplicit false

/-- An annotation at a line, with the number of lines captured after it. -/
structure Finding where
  line : Nat
  captured : Nat
  annotation : Annotation
  deriving DecidableEq, Repr

namespace Finding

/-- The line of the annotation and the captured lines. -/
def lines (f : Finding) : List Int :=
  (List.range (f.captured + 1)).map fun k => ((f.line + k : Nat) : Int)

/-- The group a finding is in the file at `filePath`. -/
def group (filePath : Text) (f : Finding) : Group :=
  Group.placed
    { functionality := f.annotation.name
      filePath
      lines := f.lines
      description := f.annotation.description }

end Finding

/-- What it takes to read the documents of one language. -/
structure Reader where
  markers : Language.Markers
  strategy : Strategy
  main : Pattern
  extras : Except Fault (List Pattern)

namespace Reader

/-- The annotation on one line and the number of lines captured after it. -/
def step (r : Reader) (line : Text) (after : List Text) :
    Except Fault (Option Annotation × Nat) := do
  match ← r.markers.classify line with
  | none => return (none, 0)
  | some comment =>
      match ← Annotation.read r.main r.extras comment.text with
      | none => return (none, 0)
      | some a =>
          if comment.wholeLine then return (some a, ← r.markers.captured r.strategy line after)
          else return (some a, 0)

/-- The findings in the lines from number `n` on. -/
def findings (r : Reader) (n : Nat) (lines : List Text) : Except Fault (List Finding) :=
  match lines with
  | [] => .ok []
  | line :: after => do
      let (a?, captured) ← r.step line after
      let later ← r.findings (n + 1 + captured) (after.drop captured)
      return (a?.map (⟨n, captured, ·⟩)).toList ++ later
termination_by lines.length
decreasing_by simp only [List.length_drop, List.length_cons]; omega

/-- The groups of a document. -/
def groups (r : Reader) (filePath : Text) (lines : List Text) : Except Fault (List Group) :=
  (r.findings 1 lines).map (·.map (Finding.group filePath))

/-- Is there a comment on the line in which the main pattern finds nothing? -/
def asksAt (r : Reader) (line : Text) : Bool :=
  match r.markers.classify line with
  | .ok (some comment) => (r.main.search comment.text).isNone
  | _ => false

/-- Does reading these lines need the additional patterns? -/
def asks (r : Reader) (lines : List Text) : Bool :=
  match lines with
  | [] => false
  | line :: after =>
      r.asksAt line ||
        match r.step line after with
        | .ok (_, captured) => r.asks (after.drop captured)
        | .error _ => false
termination_by lines.length
decreasing_by simp only [List.length_drop, List.length_cons]; omega

end Reader

end CodeAtlas.Scan
