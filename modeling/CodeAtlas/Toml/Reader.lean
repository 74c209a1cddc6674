/-
# Toml.Reader -- values and pairs

A value is told by its first character: a quotation mark begins a text, `[` an array, `{` an
inline table, and anything else is a moment, a number or a truth value.  The members of an array are
of one kind; days are of one kind with or without a time, and times of another.

A pair is a line with an equals sign (`cutPair`).  The sign that ends the key is the first one
outside of quotes; but while what follows it is no number or moment and does not begin with a blank,
a mark or a bracket, the next sign is taken instead.  A key with points leads through tables, which
are made on the way (`keyPath`, `openTables`).  A key must be new.

A pair can open a text of several lines (`openText?`); then its value is still to come.  In an
inline table such a pair ends the table.

Fuel bounds the nesting: an array takes two units, an inline table three (`readValue`,
`readArray`, `readTable`, `addPair`).
-/
import CodeAtlas.Toml.Members
import CodeAtlas.Toml.Moment
import CodeAtlas.Toml.Word

namespace CodeAtlas.Toml

set_option autoImplicit false

/-- Deepest nesting of values, in units of fuel. -/
def depthLimit : Nat := 985

/-! ## Keys -/

/-- A key and the tables it lies in. -/
structure KeyPath where
  tables : List Text := []
  key : Text

/-- The parts of a key with points.  Only parts of a key that has quotes are trimmed. -/
def keyParts (key : Text) : List Text :=
  if key.any isMark then
    ((quoteParts key).zipIdx.map fun (part, i) =>
      if i % 2 == 1 then [part] else (Text.splitOn '.' part).map Text.trim).flatten
  else Text.splitOn '.' key

/-- Where a key leads; empty parts count for nothing. -/
def keyPath (key : Text) : Except Fault KeyPath :=
  if key.contains '.' then
    match ((keyParts key).reverse.dropWhile List.isEmpty) with
    | [] => .error .outOfRange
    | last :: before =>
        .ok { tables := before.reverse.filter (!·.isEmpty), key := Text.trim last }
  else match key.head? with
    | none => .error .outOfRange
    | some c =>
        if isMark c && key.getLast? == some c then
          (decodeShort (Text.inner 1 key)).map fun key => { key }
        else .ok { key }

/-! ## Pairs -/

/-- A pair that is cut in two. -/
structure Pair where
  key : Text
  value : Text
  tidy : Bool

/-- Can the text after an equals sign be a value, as far as its beginning tells? -/
def canBeValue (v : Text) : Except Fault Bool :=
  if v.head?.all " \t'\"[\x7b".toList.contains || Text.trim v == "true" || Text.trim v == "false" ||
      (Number.readFloat? v).isSome then .ok true
  else (readMoment v).map fun m => m.isSome || (timeNumbers? v).isSome

/-- Move the cut from one equals sign to the next until a value can follow it. -/
def settle (key value : Text) (tidy : Bool) : Except Fault Pair := do
  if ← canBeValue value then return { key := Text.trim key, value := Text.trim value, tidy }
  else match _h : value.dropWhile (· != '=') with
    | [] => throw .unreadable
    | _ :: rest => settle (key ++ '=' :: value.takeWhile (· != '=')) rest (tidy && isTidy rest)
termination_by value.length
decreasing_by
  have h := Text.length_dropWhile_le (fun c => c != '=') value
  simp_all only [List.length_cons]
  omega

/-- Cut a line with an equals sign. -/
def cutPair (line : Text) : Except Fault Pair := do
  let pieces := Text.splitOn '=' line
  let count := min (countBefore "=" false (quoteParts line) + 1) (pieces.length - 1)
  let key := Text.join "=" (pieces.take count)
  let value := Text.join "=" (pieces.drop count)
  let plain := if value.head?.any Char.isDigit then dropLowLines value else value
  if ← canBeValue plain then
    return { key := Text.trim key, value := Text.trim plain, tidy := isTidy value }
  else settle key value (isTidy value)

/-! ## Texts of several lines -/

/-- A text of several lines that is being read. -/
structure OpenText where
  key : Text
  text : Text
  /-- Has the last line ended in a backslash, which joins it with the next? -/
  joined : Bool

namespace OpenText

/-- One more line is there; a line ends with its line break unless it is joined. -/
def ofLine (key text : Text) (joined : Bool) : OpenText :=
  { key, text := if joined then text.dropLast else text ++ ['\n'], joined }

end OpenText

/-- The last text of an array, from its pieces, last piece first. -/
def lastText (pieces : List Text) : Except Fault Text :=
  match pieces with
  | [] => .ok []
  | [piece] => .ok piece
  | piece :: next :: rest =>
      match piece.head? with
      | none => .error .outOfRange
      | some c => if isMark c then .ok piece else lastText ((next ++ ',' :: piece) :: rest)
termination_by pieces.length

/-- Does the text begin with a tripled mark that it does not end with? -/
def opensText (t : Text) : Except Fault Bool :=
  match t with
  | [] => .error .outOfRange
  | c :: rest =>
      if !isMark c then .ok false
      else match rest with
        | [] => .error .outOfRange
        | second :: rest' =>
            if second != c then .ok false
            else match rest' with
              | [] => .error .outOfRange
              | third :: _ =>
                  .ok (third == c && !(5 < t.length && (t.drop (t.length - 3)).all (· == c)))

/-- The text of several lines that the value under a key opens, if it does so. -/
def openText? (key value : Text) : Except Fault (Option OpenText) := do
  if value.length < 3 then return none
  let last ←
    if value.head? == some '[' && value.getLast? != some ']' && startsQuoted value then
      lastText (Text.splitOn ',' (Text.trim (value.drop 1))).reverse
    else pure value
  if ← opensText last then return some (.ofLine key value (endsEscaping last)) else return none

/-! ## Tables -/

/-- Make the tables on a path that are not there. -/
def openTables : List Text → Value → Except Fault Value
  | [], v => .ok v
  | key :: path, .table ms =>
      (openTables path ((Entries.get? ms key).getD (.table []))).map fun v =>
        .table (Entries.set ms key v)
  | _ :: _, _ => .error .wrongKind

/-- Is the key at the end of a path new? -/
def isNew (key : Text) : List Text → Value → Bool
  | [], .table ms => !Entries.contains ms key
  | name :: path, .table ms => ((Entries.get? ms name).map (isNew key path)).getD true
  | _, _ => false

/-- Put a value under the key at the end of a path. -/
def putAt (key : Text) (v : Value) : List Text → Value → Value
  | [], .table ms => .table (Entries.set ms key v)
  | name :: path, .table ms =>
      .table (Entries.set ms name (putAt key v path ((Entries.get? ms name).getD (.table []))))
  | _, other => other

/-- Are the values of one kind? -/
def sameKind : Value → Value → Bool
  | .null, .null => true
  | .bool _, .bool _ => true
  | .int _, .int _ => true
  | .float _, .float _ => true
  | .text _, .text _ => true
  | .moment m, .moment m' => m.isTime == m'.isTime
  | .list _, .list _ => true
  | .table _, .table _ => true
  | _, _ => false

/-! ## Values -/

mutual

/-- The value a text spells. -/
def readValue : Nat → Bool → Text → Except Fault Value
  | 0, _, _ => .error .tooDeep
  | fuel + 1, tidy, t =>
      match t with
      | '"' :: _ => (readQuoted '"' t).map .text
      | '\'' :: _ => (readQuoted '\'' t).map .text
      | '[' :: _ => (readArray fuel t).map .list
      | '\x7b' :: _ => readTable fuel t (.table [])
      | _ => do
          match ← moment? t with
          | some m => return .moment m
          | none => (word? tidy t).elim (.error .unreadable) .ok

/-- The members of an array, given with its brackets; blank ones are passed over. -/
def readArray : Nat → Text → Except Fault (List Value)
  | 0, _ => .error .tooDeep
  | fuel + 1, t => do
      let members := ((← arrayMembers t).map Text.trim).filter (!·.isEmpty)
      members.foldlM (fun vs member => do
        let v ← readValue fuel true member
        if vs.head?.all (sameKind v) then return vs ++ [v] else throw .unreadable) []

/-- Add the pairs of an inline table, given with its braces, to a table. -/
def readTable : Nat → Text → Value → Except Fault Value
  | 0, _, _ => .error .tooDeep
  | fuel + 1, t, table => do
      let step := fun (state : Value × Option OpenText) (pair : Text) =>
        if state.2.isSome then .ok state else addPair fuel pair state.1
      return (← (← tablePairs t).foldlM step (table, none)).1

/-- Add a pair to a table; if it opens a text of several lines, only the tables on its path are
made. -/
def addPair : Nat → Text → Value → Except Fault (Value × Option OpenText)
  | 0, _, _ => .error .tooDeep
  | fuel + 1, line, table => do
      let pair ← cutPair line
      let path ← keyPath pair.key
      let table ← openTables path.tables table
      match ← openText? path.key pair.value with
      | some opened =>
          if !isNew path.key path.tables table then throw .unreadable
          if path.key.isEmpty then throw .notYetThere
          return (table, some opened)
      | none =>
          let v ← readValue fuel pair.tidy pair.value
          if !isNew path.key path.tables table then throw .unreadable
          return (putAt path.key v path.tables table, none)

end

end CodeAtlas.Toml
