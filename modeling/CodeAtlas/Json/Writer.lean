/-
# Json.Writer -- values as indented JSON text

Two spaces of indentation a level, one member a line, `[]` and `{}` for what is empty, members in
their order.  The text is plain ASCII: `"`, `\` and the five named controls have their short
escapes, every other character outside `U+0020` to `U+007E` is written as `\u` and four digits,
in two halves when it lies beyond `U+FFFF`.  JSON has no moments: one would be written as a text.
-/
import CodeAtlas.Value.Shown

namespace CodeAtlas.Json

set_option autoImplicit false

/-! ## Text -/

def unitEscape (n : Nat) : Text := '\\' :: 'u' :: Text.hex 4 n

def escape (c : Char) : Text :=
  let n := c.toNat
  if c == '"' then "\\\""
  else if c == '\\' then "\\\\"
  else if c == '\n' then "\\n"
  else if c == '\r' then "\\r"
  else if c == '\t' then "\\t"
  else if n == 8 then "\\b"
  else if n == 12 then "\\f"
  else if 32 ≤ n && n < 127 then [c]
  else if n < 0x10000 then unitEscape n
  else
    unitEscape (0xD800 + (n - 0x10000) / 0x400) ++ unitEscape (0xDC00 + (n - 0x10000) % 0x400)

def writeText (t : Text) : Text := '"' :: t.flatMap escape ++ ['"']

/-! ## Values -/

def writeFloat (x : Float) : Text :=
  if x.isNaN then "NaN"
  else if x.isInf then (if x < 0.0 then "-Infinity" else "Infinity")
  else Number.showFloat x

/-- A line break and the indentation of `level`. -/
def newLine (level : Nat) : Text := '\n' :: List.replicate (2 * level) ' '

/-- Members between brackets, each on a line of its own. -/
def enclose (level : Nat) (opening closing : Char) (members : List Text) : Text :=
  if members.isEmpty then [opening, closing]
  else
    opening :: newLine (level + 1) ++ Text.join (',' :: newLine (level + 1)) members ++
      newLine level ++ [closing]

mutual

def writeAt (level : Nat) : Value → Text
  | .null => "null"
  | .bool true => "true"
  | .bool false => "false"
  | .int n => Number.showInt n
  | .float x => writeFloat x
  | .text t => writeText t
  | .moment m => writeText (m.iso 'T')
  | .list vs => enclose level '[' ']' (writeEach (level + 1) vs)
  | .table ms => enclose level '\x7b' '\x7d' (writeMembers (level + 1) ms)

def writeEach (level : Nat) : List Value → List Text
  | [] => []
  | v :: vs => writeAt level v :: writeEach level vs

def writeMembers (level : Nat) : List (Text × Value) → List Text
  | [] => []
  | (key, v) :: ms => (writeText key ++ ": " ++ writeAt level v) :: writeMembers level ms

end

def write (v : Value) : Text := writeAt 0 v

end CodeAtlas.Json
