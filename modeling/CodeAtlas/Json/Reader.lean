/-
# Json.Reader -- JSON text as a value

The grammar is that of RFC 8259, read strictly, with three additional numbers `NaN`, `Infinity`
and `-Infinity`.  A number with a point or an exponent is floating-point, any other whole.  A key
that is repeated keeps its first place and its last value.  Nothing but white space may follow
the value.

A text is made of characters, and half of a pair of surrogates is none: written without its other
half, as in `\ud800`, it is read as the replacement character U+FFFD (`readUnit?`).  So keys, names
and paths that differ in such a half only are not told apart.

Three things can go wrong (`ReadFault`): the text is malformed, it holds a whole number of more
than `Number.maxDigits` digits, or its arrays and objects are nested deeper than `depthLimit`.
Reading goes from left to right and stops at the first fault.

Every reader returns the value and the rest of the text.  The number of values is bounded by the
length of the text, which is the fuel of the mutual recursion; `depth` is the number of levels that
may still be opened.
-/
import CodeAtlas.Value.Basic
import CodeAtlas.Number.Decimal

namespace CodeAtlas.Json

set_option autoImplicit false

inductive ReadFault where
  | malformed
  | tooManyDigits (count : Nat)
  | tooDeep
  deriving DecidableEq, Repr

abbrev Reader (α : Type) := Text → Except ReadFault (α × Text)

def isSpace (c : Char) : Bool := c == ' ' || c == '\t' || c == '\n' || c == '\r'

def skipSpace (t : Text) : Text := t.dropWhile isSpace

/-! ## Text -/

/-- The number of exactly `count` hexadecimal digits. -/
def readHex? (count : Nat) (t : Text) : Option (Nat × Text) :=
  let digits := t.take count
  if digits.length == count then
    (digits.mapM Text.hexValue?).map fun ds => (ds.foldl (fun n d => 16 * n + d) 0, t.drop count)
  else none

/-- The character after `\u`, joined with a second half if one follows; a half without the other one
is replaced. -/
def readUnit? (t : Text) : Option (Char × Text) :=
  (readHex? 4 t).map fun (n, rest) =>
    if 0xD800 ≤ n && n < 0xDC00 then
      match Text.after? "\\u" rest |>.bind (readHex? 4) with
      | some (m, rest') =>
          if 0xDC00 ≤ m && m < 0xE000 then
            (Char.ofNat (0x10000 + (n - 0xD800) * 0x400 + (m - 0xDC00)), rest')
          else (Char.ofNat 0xFFFD, rest)
      | none => (Char.ofNat 0xFFFD, rest)
    else if 0xDC00 ≤ n && n < 0xE000 then (Char.ofNat 0xFFFD, rest)
    else (Char.ofNat n, rest)

def shortEscape? : Char → Option Char
  | '"' => some '"'
  | '\\' => some '\\'
  | '/' => some '/'
  | 'b' => some (Char.ofNat 8)
  | 'f' => some (Char.ofNat 12)
  | 'n' => some '\n'
  | 'r' => some '\r'
  | 't' => some '\t'
  | _ => none

/-- The text up to the closing quotation mark. -/
def readStringBody : Nat → Text → Option (Text × Text)
  | 0, _ => none
  | _, [] => none
  | _, '"' :: rest => some ([], rest)
  | fuel + 1, '\\' :: c :: rest =>
      if c == 'u' then
        (readUnit? rest).bind fun (d, rest') =>
          (readStringBody fuel rest').map fun (t, r) => (d :: t, r)
      else
        (shortEscape? c).bind fun d =>
          (readStringBody fuel rest).map fun (t, r) => (d :: t, r)
  | fuel + 1, c :: rest =>
      if c.toNat < 32 || c == '\\' then none
      else (readStringBody fuel rest).map fun (t, r) => (c :: t, r)

def readString : Reader Text := fun t =>
  match readStringBody (t.length + 1) t with
  | some result => .ok result
  | none => .error .malformed

/-! ## Numbers -/

def takeDigits (t : Text) : Text × Text := (t.takeWhile Char.isDigit, t.dropWhile Char.isDigit)

/-- The digits before the point; a zero in front stands alone. -/
def takeWhole : Text → Text × Text
  | '0' :: rest => (['0'], rest)
  | t => takeDigits t

/-- A point and at least one digit. -/
def takeFraction : Text → Text × Text
  | '.' :: rest =>
      let digits := takeDigits rest
      if digits.1.isEmpty then ([], '.' :: rest) else digits
  | t => ([], t)

/-- `e`, a sign, and at least one digit. -/
def takeExponent : Text → Option Int × Text
  | [] => (none, [])
  | c :: rest =>
      let signed := Number.takeSign rest
      let digits := takeDigits signed.2
      if (c == 'e' || c == 'E') && !digits.1.isEmpty then
        let n : Int := Number.digitsValue digits.1
        (some (if signed.1 then -n else n), digits.2)
      else (none, c :: rest)

def readNumber : Reader Value := fun t =>
  let negative := t.head? == some '-'
  let unsigned := if negative then t.drop 1 else t
  let whole := takeWhole unsigned
  if whole.1.isEmpty then .error .malformed
  else
    let fraction := takeFraction whole.2
    let exponent := takeExponent fraction.2
    if fraction.1.isEmpty && exponent.1.isNone then
      if Number.maxDigits < whole.1.length then .error (.tooManyDigits whole.1.length)
      else
        let n : Int := Number.digitsValue whole.1
        .ok (.int (if negative then -n else n), whole.2)
    else
      let x := Number.scaledFloat (Number.digitsValue (whole.1 ++ fraction.1))
        (exponent.1.getD 0 - fraction.1.length)
      .ok (.float (.ofFloat (if negative then -x else x)), exponent.2)

/-- The values that are written as words. -/
def words : List (Text × Value) :=
  [("null", .null), ("true", .bool true), ("false", .bool false),
   ("NaN", .float (.ofFloat (0.0 / 0.0))), ("Infinity", .float (.ofFloat (1.0 / 0.0))),
   ("-Infinity", .float (.ofFloat (-(1.0 / 0.0))))]

/-! ## Values -/

/-- Deepest nesting of arrays and objects. -/
def depthLimit : Nat := 990

/-- Open one more level. -/
def deeper : Nat → Except ReadFault Nat
  | 0 => .error .tooDeep
  | depth + 1 => .ok depth

mutual

def readValue (depth : Nat) : Nat → Reader Value
  | 0, _ => .error .malformed
  | fuel + 1, t =>
      match t with
      | '"' :: rest => (readString rest).map fun (s, r) => (.text s, r)
      | '[' :: rest =>
          (deeper depth).bind fun depth =>
            match skipSpace rest with
            | ']' :: r => .ok (.list [], r)
            | r => (readMembers depth fuel r).map fun (vs, r') => (.list vs, r')
      | '\x7b' :: rest =>
          (deeper depth).bind fun depth =>
            match skipSpace rest with
            | '\x7d' :: r => .ok (.table [], r)
            | r => (readPairs depth fuel [] r).map fun (ms, r') => (.table ms, r')
      | t =>
          match words.findSome? fun (word, v) => (Text.after? word t).map (v, ·) with
          | some result => .ok result
          | none => readNumber t

def readMembers (depth : Nat) : Nat → Reader (List Value)
  | 0, _ => .error .malformed
  | fuel + 1, t => do
      let (v, rest) ← readValue depth fuel t
      match skipSpace rest with
      | ']' :: r => return ([v], r)
      | ',' :: r =>
          let (vs, r') ← readMembers depth fuel (skipSpace r)
          return (v :: vs, r')
      | _ => throw .malformed

def readPairs (depth : Nat) : Nat → Entries Value → Reader (Entries Value)
  | 0, _, _ => .error .malformed
  | fuel + 1, done, t => do
      match t with
      | '"' :: t =>
          let (key, rest) ← readString t
          match skipSpace rest with
          | ':' :: r =>
              let (v, r') ← readValue depth fuel (skipSpace r)
              let done' := done.set key v
              match skipSpace r' with
              | '\x7d' :: r'' => return (done', r'')
              | ',' :: r'' => readPairs depth fuel done' (skipSpace r'')
              | _ => throw .malformed
          | _ => throw .malformed
      | _ => throw .malformed

end

/-- The value a text spells. -/
def read (t : Text) : Except ReadFault Value := do
  let (v, rest) ← readValue depthLimit (t.length + 1) (skipSpace t)
  if (skipSpace rest).isEmpty then return v else throw .malformed

end CodeAtlas.Json
