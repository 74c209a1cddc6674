/-
# Scan.Comment -- which lines carry a comment

A language has up to three comment markers: one that starts a comment to the end of the line, and
a pair around a block.  A marker that is absent or empty never matches; a block needs both of its
markers.  A line is judged by its trimmed text alone:

1. it begins with the line marker -> a whole-line comment, the rest of the line;
2. it begins with the block start and ends with the block end, not overlapping -> a whole-line
   comment, what is between;
3. the line marker occurs later -> an inline comment, the rest after its first occurrence;
4. the block start occurs later and the block end after it -> an inline comment, what is between
   the first such pair.

The first rule that applies decides (`classify`); a blank line carries none.  `startsComment`
is the weaker test that ends a block of code: the trimmed line begins with the line marker or
with the block start, whether or not the block ends.
-/
import CodeAtlas.Text.Basic

namespace CodeAtlas.Scan

set_option autoImplicit false

structure Markers where
  line : Option Text := none
  blockStart : Option Text := none
  blockEnd : Option Text := none
  deriving DecidableEq, Repr

/-- The text of a comment, and whether the comment is all of its line. -/
structure Comment where
  text : Text
  wholeLine : Bool
  deriving DecidableEq, Repr

namespace Markers

/-- A marker that can match. -/
def usable (marker : Option Text) : Option Text := marker.filter (!·.isEmpty)

def line? (m : Markers) : Option Text := usable m.line

/-- Both markers of a block. -/
def block? (m : Markers) : Option (Text × Text) :=
  match usable m.blockStart, usable m.blockEnd with
  | some start, some stop => some (start, stop)
  | _, _ => none

end Markers

/-- Rule 1, on a trimmed line. -/
def wholeLineComment? (m : Markers) (t : Text) : Option Comment :=
  m.line?.bind fun marker => (Text.after? marker t).map (⟨·, true⟩)

/-- Rule 2, on a trimmed line. -/
def wholeBlockComment? (m : Markers) (t : Text) : Option Comment :=
  m.block?.bind fun (start, stop) =>
    if start.isPrefixOf t && stop.isSuffixOf t && start.length + stop.length ≤ t.length then
      some ⟨(t.take (t.length - stop.length)).drop start.length, true⟩
    else none

/-- Rule 3, on a trimmed line. -/
def inlineComment? (m : Markers) (t : Text) : Option Comment :=
  m.line?.bind fun marker => (Text.find? marker t).bind fun pos =>
    if pos = 0 then none else some ⟨t.drop (pos + marker.length), false⟩

/-- Rule 4, on a trimmed line. -/
def inlineBlockComment? (m : Markers) (t : Text) : Option Comment :=
  m.block?.bind fun (start, stop) => (Text.find? start t).bind fun pos =>
    if pos = 0 then none
    else
      let inside := t.drop (pos + start.length)
      (Text.find? stop inside).map fun close => ⟨inside.take close, false⟩

/-- The comment a line carries, if any. -/
def classify (m : Markers) (line : Text) : Option Comment :=
  let t := Text.trim line
  if t.isEmpty then none
  else wholeLineComment? m t <|> wholeBlockComment? m t <|> inlineComment? m t <|>
    inlineBlockComment? m t

/-- Does a trimmed line begin with a comment? -/
def startsComment (m : Markers) (t : Text) : Bool :=
  m.line?.any (·.isPrefixOf t) || (Markers.usable m.blockStart).any (·.isPrefixOf t)

end CodeAtlas.Scan
