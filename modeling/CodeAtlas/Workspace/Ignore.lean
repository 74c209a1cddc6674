/-
# Workspace.Ignore -- which paths are left out

An ignore file has one rule a line.  White space at the end of a line is cut off, unless the line
ends in a backslash and a space; a line that is empty, or `/`, or begins with `#`, says nothing.
An exclamation mark in front makes a rule that takes paths back in.

The rest of a line is cut at slashes into segments (`segments`).  A slash in front ties the rule to
the top; a single segment, with or without a slash behind it, may stand at any depth, which is
written with the segment `**` in front; a slash at the end stands for `**`.  A rule matches a path
from its beginning (`pathExpr`): `**` in front is any directories or none, `**` inside likewise,
`**` at the end something below, `*` one whole name, anything else one name by its glob.  Unless a
rule ends in `**`, it also matches everything below what it names.

A match that only says that the path is in a directory of the rule -- through a *directory mark* --
counts less than any other.  Of all rules that match a path with the greatest weight, the last one
decides (`decisive?`).

A line with a class that is never closed says nothing; a line with a backslash at the end of a
segment, or without any segment, is a fault.
-/
import CodeAtlas.Workspace.Glob

namespace CodeAtlas.Workspace

set_option autoImplicit false

/-- A rule: whether it takes paths back in, and what it matches; group 1 is the directory mark. -/
structure Rule where
  negated : Bool
  expr : Pattern.Expr
  deriving DecidableEq, Repr

/-! ## Segments -/

/-- Any number of directories. -/
def anyDepth : Text := "**"

/-- Neighbouring segments `**` made one. -/
def collapse : List Text → List Text
  | a :: b :: rest =>
      if a == anyDepth && b == anyDepth then collapse (b :: rest) else a :: collapse (b :: rest)
  | segments => segments

/-- The segments with their place made explicit: a leading `**` unless the rule is tied to the
top. -/
def anchored (segments : List Text) : List Text :=
  match segments with
  | [] => []
  | first :: rest =>
      if first.isEmpty then rest
      else if rest.isEmpty || rest == [[]] then anyDepth :: segments
      else segments

/-- A slash at the end stands for everything below. -/
def openEnded (segments : List Text) : List Text :=
  if segments.getLast? == some [] then segments.dropLast ++ [anyDepth] else segments

/-- The segments of a rule. -/
def segments (body : Text) : List Text :=
  collapse (openEnded (anchored (Text.splitOn '/' body)))

/-! ## What a rule matches -/

open Pattern

/-- A segment of a rule. -/
inductive Segment where
  | anyDepth
  | name (e : Expr)

/-- A segment by its text; only whole names match a single star. -/
def readSegment (t : Text) : Except GlobFault (Except Fault Segment) :=
  if t == Workspace.anyDepth then .ok (.ok .anyDepth)
  else if t == "*" then .ok (.ok (.name (.rounds 1 none true GlobItem.notSlash)))
  else (GlobItem.read t).map fun items => (globExpr items).map .name

def slash : Expr := .char '/'

/-- A slash that marks a directory. -/
def directoryMark : Expr := .group 1 slash

/-- A slash, marked if the rule names directories only. -/
def closingSlash (directories : Bool) : Expr := if directories then directoryMark else slash

def anything : Expr := .rounds 1 none true .any

def optional (e : Expr) : Expr := .rounds 0 (some 1) true e

/-- What follows the beginning; `between` says whether a slash stands before the next name. -/
def segmentsExpr (directories between : Bool) : List Segment → Expr
  | [] => .alt directoryMark (.anchor .lineEnd)
  | [.anyDepth] => closingSlash directories
  | .anyDepth :: rest => .seq (optional (.seq slash anything)) (segmentsExpr directories true rest)
  | .name e :: rest =>
      let named := Expr.seq e (segmentsExpr directories true rest)
      if between then .seq slash named else named

/-- The expression for all segments of a rule. -/
def pathExpr (directories : Bool) (texts : List Text) (parts : List Segment) : Expr :=
  if texts == [Workspace.anyDepth] then if directories then directoryMark else .empty
  else if texts == [Workspace.anyDepth, "*".toList] then .empty
  else if texts == [Workspace.anyDepth, "*".toList, Workspace.anyDepth] then
    closingSlash directories
  else
    match parts with
    | .anyDepth :: rest =>
        .seq (.anchor .textStart)
          (.seq (optional (.seq anything slash)) (segmentsExpr directories false rest))
    | _ => .seq (.anchor .textStart) (segmentsExpr directories false parts)

/-! ## Reading -/

/-- A line without white space at its end, unless that is escaped. -/
def trimLine (line : Text) : Text :=
  if ("\\ " : Text).isSuffixOf line then line else Text.trimRight line

/-- The rule with this body. -/
def readBody (negated : Bool) (body : Text) : Except Fault (Option Rule) :=
  let texts := segments body
  if texts.isEmpty then .error .ignorePattern
  else
    match texts.mapM readSegment with
    | .error .unclosedClass => .ok none
    | .error .danglingEscape => .error .ignorePattern
    | .ok parts =>
        (parts.mapM id).map fun parts =>
          some { negated, expr := pathExpr (body.getLast? == some '/') texts parts }

/-- The rule on a line, if it has one. -/
def readRule (line : Text) : Except Fault (Option Rule) :=
  match trimLine line with
  | [] => .ok none
  | '#' :: _ => .ok none
  | ['/'] => .ok none
  | '!' :: body => readBody true body
  | body => readBody false body

/-- The rules on the lines. -/
def readRules (lines : List Text) : Except Fault (List Rule) :=
  (lines.mapM readRule).map fun rules => rules.filterMap id

/-! ## Deciding -/

namespace Rule

/-- What a match of the rule with the path weighs: 1 through a directory mark, else 2. -/
def weight? (r : Rule) (path : Text) : Option Nat :=
  (r.expr.search {} path).map fun captures =>
    if (List.lookup 1 captures).isSome then 1 else 2

end Rule

/-- The last rule that matches with this weight. -/
def lastOfWeight? (rules : List Rule) (path : Text) (weight : Nat) : Option Rule :=
  rules.reverse.find? fun r => r.weight? path == some weight

/-- The rule that decides about a path. -/
def decisive? (rules : List Rule) (path : Text) : Option Rule :=
  lastOfWeight? rules path 2 <|> lastOfWeight? rules path 1

/-- Is the path left out?  The path of a directory ends in a slash. -/
def isIgnored (rules : List Rule) (path : Text) : Bool := (decisive? rules path).any (!·.negated)

end CodeAtlas.Workspace
