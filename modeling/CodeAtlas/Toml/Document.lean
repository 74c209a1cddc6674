/-
# Toml.Document -- TOML text as a table

The lines of a text are read one after another into a draft of the table (`Draft.readLine`).  A
line that begins with `[` is a header: it says in which table the pairs after it go.  A line that
begins with `{` is an inline table whose pairs go there, a line with an equals sign is a pair, and
any other line says nothing.  The lines of an open text are put together until one ends with its
marks.

A header leads through tables that are made on the way, and through arrays to their last member
(`openHeader`).  The table a header names must be new, with two exceptions: a name that only came
about as part of a longer header may still get a header of its own -- once, and whatever table of
that name it is -- and within an array nothing is asked.  A header in double brackets adds a
table to an array.

Line ends have been made `\n` before.
-/
import CodeAtlas.Toml.Layout
import CodeAtlas.Toml.Reader

namespace CodeAtlas.Toml

set_option autoImplicit false

/-! ## Places -/

/-- A step towards a part of a value. -/
inductive Step where
  | key (name : Text)
  | last

/-- Change the part of a value at a place. -/
def changeAt (f : Value → Except Fault Value) : List Step → Value → Except Fault Value
  | [], v => f v
  | .key name :: place, .table ms =>
      match Entries.get? ms name with
      | some v => (changeAt f place v).map fun v => .table (Entries.set ms name v)
      | none => .error .wrongKind
  | .last :: place, .list vs =>
      match vs.getLast? with
      | some v => (changeAt f place v).map fun v => .list (vs.dropLast ++ [v])
      | none => .error .outOfRange
  | _ :: _, _ => .error .wrongKind

/-! ## Headers -/

def isBareName (name : Text) : Bool :=
  !name.isEmpty && name.all fun c => c.isAlphanum || c == '_' || c == '-'

/-- The names of a header, from its pieces between points.  The pieces of a quoted name are joined
again until its mark closes it (`opened` holds what has been joined), and nothing is replaced in
it. -/
def headerNames : Option Text → List Text → Except Fault (List Text)
  | none, [] => .ok []
  | some _, [] => .error .unreadable
  | opened, piece :: pieces =>
      let joined := opened.elim (Text.trim piece) (· ++ '.' :: piece)
      let name := Text.trim joined
      if name.head?.any isMark then
        if 1 < name.length && name.head? == name.getLast? then
          (headerNames none pieces).map (Text.inner 1 name :: ·)
        else headerNames (some joined) pieces
      else if isBareName name then (headerNames none pieces).map (name :: ·)
      else .error .unreadable

/-- The text within the brackets of a header, given the line after the opening ones. -/
def headerText (closing line : Text) : Except Fault Text :=
  let pieces := Text.splitOnText closing line
  let count := countBefore closing false (quoteParts line) + 1
  if count < pieces.length && Text.isBlank (Text.join closing (pieces.drop count)) then
    .ok (Text.join closing (pieces.take count))
  else .error .unreadable

/-- A value with a place in it, and the names that headers have brought about in passing. -/
structure Opened where
  value : Value
  place : List Step
  implied : List Text

/-- A new member under the last name of a header, or on the way there. -/
def newMember (array isLast : Bool) : Value :=
  if array && isLast then .list [.table []] else .table []

/-- The last member of a list, where a table is wanted. -/
def lastTable : Value → Except Fault (Entries Value)
  | .list vs =>
      match vs.getLast? with
      | some (.table ms) => .ok ms
      | some _ => .error .wrongKind
      | none => .error .outOfRange
  | .text [] => .error .outOfRange
  | _ => .error .wrongKind

/-- The member a header finds under its last name, or the fault that forbids it; and the names
that are still implied. -/
def reopen (array : Bool) (name : Text) (member : Value) (implied : List Text) :
    Except Fault (Value × List Text) :=
  if implied.contains name then
    if array then .error .unreadable else .ok (member, implied.erase name)
  else if array then
    match member with
    | .list vs => .ok (.list (vs ++ [.table []]), implied)
    | _ => .error .noSuchMember
  else .error .unreadable

/-- Go into a member; a header in double brackets goes on to the last member of an array. -/
def enter (array : Bool) (member : Value)
    (go : Value → Except Fault Opened) : Except Fault Opened :=
  if !array then go member
  else match member with
    | .table _ => go member
    | .text (_ :: _) => go member
    | .text [] => .error .outOfRange
    | .list vs =>
        match vs.getLast? with
        | none => .error .outOfRange
        | some v =>
            (go v).map fun o =>
              { o with value := .list (vs.dropLast ++ [o.value]), place := .last :: o.place }
    | _ => .error .wrongKind

/-- Open the table a header names. -/
def openHeader (array : Bool) : List Text → List Text → Value → Except Fault Opened
  | [], implied, v => .ok { value := v, place := [], implied }
  | name :: names, implied, v => do
      if name.isEmpty then throw .unreadable
      match v with
      | .table ms =>
          let (member, implied) ← match Entries.get? ms name with
            | some member =>
                if names.isEmpty then reopen array name member implied
                else pure (member, implied)
            | none =>
                pure (newMember array names.isEmpty,
                  if names.isEmpty then implied else implied ++ [name])
          let o ← enter array member (openHeader array names implied)
          return { o with
            value := .table (Entries.set ms name o.value), place := .key name :: o.place }
      | v =>
          let ms ← lastTable v
          let member := (Entries.get? ms name).getD (newMember array names.isEmpty)
          let o ← enter array member (openHeader array names implied)
          let table : Value := .table (Entries.set ms name o.value)
          return { o with
            value := .list ((v.list?.getD []).dropLast ++ [table])
            place := .last :: .key name :: o.place }

/-! ## Lines -/

/-- What has been read so far. -/
structure Draft where
  root : Value := .table []
  /-- Where pairs go. -/
  place : List Step := []
  /-- Names that have come about as parts of headers. -/
  implied : List Text := []
  /-- A text of several lines that is not complete. -/
  opened : Option OpenText := none

namespace Draft

def readHeader (d : Draft) (line : Text) : Except Fault Draft := do
  let (array, text) ← match line with
    | '[' :: rest => (headerText "]]" rest).map (true, ·)
    | [] => throw .unreadable
    | _ => (headerText "]" line).map (false, ·)
  let names ← headerNames none (Text.splitOn '.' text)
  let o ← openHeader array names d.implied d.root
  return { d with root := o.value, place := o.place, implied := o.implied }

def readInlineTable (d : Draft) (line : Text) : Except Fault Draft := do
  if line.getLast? != some '\x7d' then throw .unreadable
  let root ← changeAt (readTable depthLimit line) d.place d.root
  return { d with root }

def readPair (d : Draft) (line : Text) : Except Fault Draft := do
  let part ← partAt d.place d.root
  let (table, opened) ← addPair depthLimit line part
  let root ← changeAt (fun _ => .ok table) d.place d.root
  return { d with root, opened }
where
  /-- The part of a value at a place. -/
  partAt : List Step → Value → Except Fault Value
    | [], v => .ok v
    | .key name :: place, .table ms =>
        (Entries.get? ms name).elim (.error .wrongKind) (partAt place)
    | .last :: place, .list vs => vs.getLast?.elim (.error .outOfRange) (partAt place)
    | _ :: _, _ => .error .wrongKind

/-- Is an open text complete with this line? -/
def closes (text line : Text) : Except Fault Bool :=
  if text.head? == some '[' then
    line.getLast?.elim (.error .outOfRange) fun c => .ok (c == ']')
  else .ok (2 < line.length && (line.drop (line.length - 3)).all fun c => text.head? == some c)

/-- One more line of an open text. -/
def readOn (d : Draft) (o : OpenText) (line : Text) : Except Fault Draft := do
  let text := o.text ++ line
  if ← closes text line then
    let v ← readValue depthLimit true text
    let root ← changeAt (fun table => .ok (putAt o.key v [] table)) d.place d.root
    return { d with root, opened := none }
  else return { d with opened := some (.ofLine o.key text (endsEscaping text)) }

def readStatement (d : Draft) (line : Text) : Except Fault Draft :=
  match line with
  | '[' :: rest => d.readHeader rest
  | '\x7b' :: _ => d.readInlineTable line
  | _ => if line.contains '=' then d.readPair line else .ok d

/-- One line.  White space around it counts only in an open text that has a line break. -/
def readLine (d : Draft) (line : Text) : Except Fault Draft :=
  match d.opened with
  | none => d.readStatement (Text.trim line)
  | some o =>
      let line := if o.joined || !o.text.contains '\n' then Text.trim line else line
      if line.isEmpty && o.joined then .ok d else d.readOn o line

end Draft

/-- The table a text spells. -/
def read (t : Text) : Except Fault (Entries Value) := do
  let d ← (← layOut t).foldlM Draft.readLine {}
  return d.root.table?.getD []

end CodeAtlas.Toml
