/-
# Toml.Writer -- tables as TOML text

Each table is written as its own pairs first, then its arrays of tables; its sub-tables follow
after all tables of the same depth, so the text lists the tables level by level (`writeTables`).
A header is preceded by an empty line unless it opens the text or one is there already.  A table
that has sub-tables and nothing else gets no header.  Nothing is written for a pair whose value is
nothing.

An array is written `[ 1, 2,]`, and a floating-point number without the zero in front of a short
exponent.

A text stands between double quotation marks, with escapes within (`escape`).  TOML has no escape
`\x`, so each `\x` is mended (`mend`): the text before it loses one of each two backslashes, and
what follows is joined to it by `x`, or by `u00` where the backslashes call for it.  A `\x` at the
very start has no text before it and just goes; there has to be another one then.
-/
import CodeAtlas.Toml.Moment

namespace CodeAtlas.Toml

set_option autoImplicit false

/-! ## Texts and keys -/

def escape (c : Char) : Text := Text.escapeWithin '"' c

/-- What stands for the `\x` after a text: `u00` if the text ends in backslashes and their number is
even, a backslash that begins the text not counted; else `x`. -/
def joint (before : Text) : Text :=
  let run := (before.reverse.takeWhile (· == '\\')).length
  let counted := if run == before.length then run - 1 else run
  if run == 0 || counted % 2 == 1 then "x" else "u00"

/-- Join the pieces between the `\x` of a text to the text before them. -/
def mend (before : Text) : List Text → Text
  | [] => before
  | piece :: pieces =>
      let halved := Text.replace "\\\\" "\\" before
      mend (halved ++ joint halved ++ piece) pieces

def writeText (t : Text) : Except Fault Text :=
  let quote := fun (body : Text) => '"' :: body ++ ['"']
  match Text.splitOnText "\\x" (t.flatMap escape) with
  | [] => .ok (quote [])
  | [] :: [_] => .error .outOfRange
  | [] :: piece :: pieces => .ok (quote (mend piece pieces))
  | piece :: pieces => .ok (quote (mend piece pieces))

/-- Letters, digits, `_` and `-`; a line break may follow. -/
def isBareKey (key : Text) : Bool :=
  let name := if key.getLast? == some '\n' then key.dropLast else key
  !name.isEmpty && name.all fun c => c.isAlphanum || c == '_' || c == '-'

def writeKey (key : Text) : Except Fault Text := if isBareKey key then .ok key else writeText key

/-! ## Values -/

def writeFloat (x : Float) : Text :=
  Text.replace "e-0" "e-" (Text.replace "e+0" "e+" (Number.showFloat x))

/-- Members of an array, or keys in the place of one. -/
def writeTexts (ts : List Text) : Except Fault Text :=
  (ts.mapM writeText).map fun written => written.flatMap fun t => ' ' :: t ++ [',']

mutual

/-- A value within a pair or an array.  A table within an array shows only its keys. -/
def writeValue : Value → Except Fault Text
  | .null => .ok "\"None\""
  | .bool true => .ok "true"
  | .bool false => .ok "false"
  | .int n => .ok (Number.showInt n)
  | .float x => .ok (writeFloat x)
  | .text t => writeText t
  | .moment m => writeMoment m
  | .list vs => (writeMembers vs).map fun t => '[' :: t ++ [']']
  | .table ms => (writeTexts (ms.map (·.1))).map fun t => '[' :: t ++ [']']

def writeMembers : List Value → Except Fault Text
  | [] => .ok []
  | v :: vs => do return ' ' :: (← writeValue v) ++ ',' :: (← writeMembers vs)

end

/-! ## Tables -/

mutual

/-- The number of values in a value, itself included. -/
def weight : Value → Nat
  | .list vs => 1 + weights vs
  | .table ms => 1 + memberWeights ms
  | _ => 1

def weights : List Value → Nat
  | [] => 0
  | v :: vs => weight v + weights vs

def memberWeights : List (Text × Value) → Nat
  | [] => 0
  | (_, v) :: ms => weight v + memberWeights ms

end

def isTable (v : Value) : Bool := v.table?.isSome

/-- A member of an array of tables; what is empty counts as an empty table. -/
def asTable : Value → Except Fault (Entries Value)
  | .table ms => .ok ms
  | .text [] => .ok []
  | .list [] => .ok []
  | _ => .error .wrongKind

/-- The part of a table's text that stands under its own header, and the sub-tables that still
have to be written, under their written keys. -/
structure Written where
  pairs : Text := []
  arrays : Text := []
  tables : Entries (Entries Value) := []

namespace Written

/-- The text under the header. -/
def text (w : Written) : Text := w.pairs ++ w.arrays

/-- Does the table have a header of its own? -/
def hasHeader (w : Written) : Bool := !w.text.isEmpty || w.tables.isEmpty

end Written

def dotted (path key : Text) : Text := if path.isEmpty then key else path ++ '.' :: key

mutual

/-- Write the table at `path` up to its sub-tables.  The fuel bounds the depth of arrays of
tables. -/
def writeTable : Nat → Text → Entries Value → Except Fault Written
  | 0, _, _ => .ok {}
  | fuel + 1, path, ms =>
      ms.foldlM (fun w (name, v) => do
        let key ← writeKey name
        let pair := fun (text : Text) =>
          { w with pairs := w.pairs ++ key ++ " = " ++ text ++ ['\n'] }
        match v with
        | .table sub => return { w with tables := w.tables.set key sub }
        | .null => return w
        | .list vs =>
            if vs.any isTable then
              let text ← vs.foldlM (fun done v => do
                return done ++ (← writeArrayTable fuel (dotted path key) (← asTable v))) []
              return { w with arrays := w.arrays ++ text }
            else return pair (← writeValue v)
        | v => return pair (← writeValue v)) {}

/-- One table of the array of tables at `path`, with all tables below it. -/
def writeArrayTable : Nat → Text → Entries Value → Except Fault Text
  | 0, _, _ => .ok []
  | fuel + 1, path, ms => do
      let w ← writeTable fuel path ms
      let below ← writeBelow fuel path w.tables
      let header : Text := "[[" ++ path ++ "]]\n"
      if w.text.head? == some '[' then return header ++ '\n' :: w.text ++ below
      else return header ++ w.text ++ '\n' :: below

/-- The tables below one table of an array of tables, level by level. -/
def writeBelow : Nat → Text → Entries (Entries Value) → Except Fault Text
  | 0, _, _ => .ok []
  | fuel + 1, path, tables => do
      if tables.isEmpty then return []
      let (text, next) ← tables.foldlM (fun (text, next) (key, ms) => do
        let w ← writeTable fuel (dotted path key) ms
        let header : Text := if w.text.isEmpty then [] else "[" ++ dotted path key ++ "]\n"
        return (text ++ header ++ w.text,
          w.tables.foldl (fun e (k, sub) => Entries.set e (dotted key k) sub) next)) ([], [])
      return text ++ (← writeBelow fuel path next)

end

/-- An empty line before what follows, unless there is nothing yet or one is there. -/
def spaced (t : Text) : Text :=
  if t.isEmpty || "\n\n".toList.isSuffixOf t then t else t ++ ['\n']

/-- Write the tables of one depth after `done`, then those below them. -/
def writeTables : Nat → Text → Entries (Entries Value) → Except Fault Text
  | 0, done, _ => .ok done
  | fuel + 1, done, tables => do
      if tables.isEmpty then return done
      let (text, next) ← tables.foldlM (fun (text, next) (path, ms) => do
        let w ← writeTable fuel path ms
        let text' : Text :=
          if w.hasHeader then spaced text ++ "[" ++ path ++ "]\n" ++ w.text else text
        return (text',
          w.tables.foldl (fun e (k, sub) => Entries.set e (dotted path k) sub) next)) (done, [])
      writeTables fuel text next

/-- The text of a document. -/
def write (root : Entries Value) : Except Fault Text := do
  let fuel := memberWeights root + 1
  let w ← writeTable fuel [] root
  writeTables fuel w.text w.tables

end CodeAtlas.Toml
