/-
# Scan.Capture -- how much code belongs to an annotation

A whole-line annotation comment captures a run of the lines right after it.  A *strategy* says
how long the run is; no strategy lets a line into the run that starts another comment.

* `generic`: up to the first blank line.
* `indentation`: also up to the first blank line; the first line must be indented at least as
  much as the comment, and every later line at least as much as the first.
* `brace`: as long as the running balance of `{` over `}` is not negative, up to and including the
  line that brings it back to zero once a `{` has been seen.  Blank lines are let in only after a
  `{`.

`captured` is the length of the run, from the comment's line and the lines after it.
-/
import CodeAtlas.Scan.Comment
import CodeAtlas.Fault

namespace CodeAtlas.Scan

set_option autoImplicit false

inductive Strategy where
  | indentation
  | brace
  | generic
  deriving DecidableEq, Repr, Inhabited

namespace Strategy

def all : List Strategy := [indentation, brace, generic]

def name : Strategy → Text
  | .indentation => "indentation"
  | .brace => "brace"
  | .generic => "generic"

def ofName? (name : Text) : Option Strategy := all.find? (·.name == name)

end Strategy

/-! ## Runs -/

/-- A line that a run without blank lines can hold. -/
def isCode (m : Markers) (line : Text) : Bool :=
  let t := Text.trim line
  !t.isEmpty && !startsComment m t

def genericRun (m : Markers) (lines : List Text) : Nat := (lines.takeWhile (isCode m)).length

/-- A run whose lines are all indented by at least `width`. -/
def indentedRun (m : Markers) (width : Nat) (lines : List Text) : Nat :=
  (lines.takeWhile fun l => isCode m l && width ≤ Text.indentation l).length

def indentationRun (m : Markers) (commentLine : Text) : List Text → Nat
  | [] => 0
  | first :: rest =>
      if Text.indentation first < Text.indentation commentLine then 0
      else indentedRun m (Text.indentation first) (first :: rest)

/-- Opening minus closing braces. -/
def braceBalance (line : Text) : Int := (line.count '\x7b' : Int) - line.count '\x7d'

/-- A run of braces after a balance of `balance`; `started` says whether a `{` has been seen. -/
def braceRun (m : Markers) (balance : Int) (started : Bool) : List Text → Nat
  | [] => 0
  | line :: rest =>
      let balance' := balance + braceBalance line
      let started' := started || line.contains '\x7b'
      if startsComment m (Text.trim line) then 0
      else if Text.isBlank line && !started then 0
      else if balance' < 0 then 0
      else if started' && balance' == 0 then 1
      else 1 + braceRun m balance' started' rest

/-- The number of lines captured after `commentLine`. -/
def captured (s : Strategy) (m : Markers) (commentLine : Text) (after : List Text) : Nat :=
  match s with
  | .generic => genericRun m after
  | .indentation => indentationRun m commentLine after
  | .brace => braceRun m 0 false after

/-! ## Captures by position

The comment may also be given by its position, counted from the end when negative.  The lines
looked at are then those of the positions that follow, the negative ones among them again counted
from the end. -/

/-- The line at a position. -/
def lineAt (lines : List Text) (i : Int) : Except Fault Text :=
  match lines[(if i < 0 then i + lines.length else i).toNat]? with
  | some line => if i < -lines.length then .error .outOfRange else .ok line
  | none => .error .outOfRange

/-- The lines at the positions from `i` on. -/
def linesFrom (lines : List Text) (i : Int) : Except Fault (List Text) :=
  if i < -lines.length then .error .outOfRange
  else if i < 0 then .ok (lines.drop (i + lines.length).toNat ++ lines)
  else .ok (lines.drop i.toNat)

/-- The positions captured after the comment at position `i`. -/
def capturedAt (s : Strategy) (m : Markers) (lines : List Text) (i : Int) :
    Except Fault (List Int) := do
  let commentLine ← if s = .indentation then lineAt lines i else pure []
  let after ← linesFrom lines (i + 1)
  return (List.range (captured s m commentLine after)).map fun k => i + 1 + (k : Nat)

end CodeAtlas.Scan
