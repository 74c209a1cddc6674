/-
# Toml.Members -- the members of an array or an inline table, as text

An array or an inline table is cut at its commas, and what does not stand by itself is joined
with the pieces that follow.  What counts as standing by itself differs:

* in an array whose first member is an array, a comma within brackets does not cut
  (`arrayPieces`);
* in one whose first member is an inline table, each table is a member, and what stands between
  them is passed over (`tablePieces`);
* in one whose first member is a quoted text, a piece is joined with the next until it ends with
  its own mark (`joinTexts`); with no piece left to join, it is a position that does not exist;
* in any other array every comma cuts;
* in an inline table a pair is joined with the next piece until its value has a shape
  (`joinPairs`).

Brackets within texts count like all others.
-/
import CodeAtlas.Toml.Quotation

namespace CodeAtlas.Toml

set_option autoImplicit false

/-! ## Arrays -/

/-- Is a quoted text the first thing within the brackets? -/
def startsQuoted (t : Text) : Bool := (Text.trim (Text.inner 1 t)).head?.any isMark

/-- Put a character in front of the first piece. -/
def onFirst (c : Char) : List Text → List Text
  | [] => [[c]]
  | piece :: pieces => (c :: piece) :: pieces

/-- Cut at the commas outside of brackets. -/
def arrayPieces : Int → Text → List Text
  | _, [] => [[]]
  | depth, c :: rest =>
      if c == ',' && depth == 0 then [] :: arrayPieces depth rest
      else if c == '[' then onFirst c (arrayPieces (depth + 1) rest)
      else if c == ']' then onFirst c (arrayPieces (depth - 1) rest)
      else onFirst c (arrayPieces depth rest)

/-- An inline table that is being read, last character first. -/
structure OpenTable where
  read : Text
  depth : Nat
  quoted : Bool := false

namespace OpenTable

/-- Is the text within quotes after one more character? -/
def quotedAfter (o : OpenTable) (c : Char) : Bool :=
  if isMark c then !o.quoted || endsEscaping o.read.reverse else o.quoted

end OpenTable

/-- The inline tables of a text.  The character right after a table is passed over in any
case. -/
def tablePieces : Option OpenTable → Text → List Text
  | _, [] => []
  | none, c :: rest =>
      tablePieces (if c == '\x7b' then some { read := [c], depth := 1 } else none) rest
  | some o, c :: rest =>
      let quoted := o.quotedAfter c
      let depth := if !quoted && c == '\x7b' then o.depth + 1 else o.depth
      let read := c :: o.read
      if quoted || c != '\x7d' then tablePieces (some { read, depth, quoted }) rest
      else if 1 < depth then tablePieces (some { read, depth := depth - 1, quoted }) rest
      else match rest with
        | [] => [read.reverse]
        | _ :: rest' => read.reverse :: tablePieces none rest'

/-- The inline tables within the brackets of an array. -/
def tablesWithin : Text → List Text
  | [] => []
  | c :: rest => tablePieces (some { read := [c], depth := if c == '\x7b' then 1 else 0 }) rest

/-- Does the text end with the mark it begins with, the mark not escaped? -/
def isBounded (t : Text) : Bool :=
  t.isEmpty || (t.getLast? == t.head? && !endsEscaping (t.dropLast.drop 1))

/-- Does the text begin with a tripled mark and end otherwise? -/
def isTripleOpen (t : Text) : Bool :=
  let start := t.head?
  2 < t.length && t[1]? == start && t[2]? == start &&
    t.reverse[1]? != start && t.reverse[2]? != start

/-- Join `piece` with those that follow until it is a text of its own.  The last piece is taken
as it is unless something has been joined to it. -/
def joinTexts (piece : Text) : List Text → Except Fault (List Text)
  | [] =>
      let t := Text.trim piece
      if !isBounded t || isTripleOpen t then .error .outOfRange else .ok [piece]
  | next :: rest =>
      let t := Text.trim piece
      if !isBounded t || isTripleOpen t then joinTexts (piece ++ ',' :: next) rest
      else if rest.isEmpty then .ok [piece, next]
      else (joinTexts next rest).map (piece :: ·)

/-- The members of an array, given with its brackets. -/
def arrayMembers (array : Text) : Except Fault (List Text) :=
  let body := Text.inner 1 array
  if body.contains '[' && Text.isBlank (body.takeWhile (· != '[')) then .ok (arrayPieces 0 body)
  else if (Text.trim body).head? == some '\x7b' then .ok (tablesWithin body)
  else match startsQuoted array, Text.splitOn ',' body with
    | true, first :: second :: rest => joinTexts first (second :: rest)
    | _, pieces => .ok pieces

/-! ## Inline tables -/

/-- Has the text of a value the shape of one? -/
def hasShape (v : Text) : Bool :=
  let first := v.head?
  let last := v.getLast?
  (first == last && first.any isMark) || first.any "-0123456789".toList.contains ||
    v == "true" || v == "false" || (first == some '[' && last == some ']') ||
    (first == some '\x7b' && last == some '\x7d')

/-- Join each piece with those that follow until its value has a shape. -/
def joinPairs (pieces : List Text) : Except Fault (List Text) :=
  match pieces with
  | [] => .ok []
  | piece :: rest =>
      match (Text.cut '=' piece).2.map Text.trim with
      | none => .error .unreadable
      | some [] => .error .outOfRange
      | some v =>
          if hasShape v then (joinPairs rest).map (piece :: ·)
          else match rest with
            | [] => .error .unreadable
            | next :: rest' => joinPairs ((piece ++ ',' :: next) :: rest')
termination_by pieces.length

/-- The pairs of an inline table, given with its braces. -/
def tablePairs (table : Text) : Except Fault (List Text) :=
  match Text.splitOn ',' (Text.inner 1 table) with
  | [only] => if Text.isBlank only then .ok [] else joinPairs [only]
  | pieces => joinPairs pieces

end CodeAtlas.Toml
