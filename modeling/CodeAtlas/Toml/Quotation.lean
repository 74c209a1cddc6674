/-
# Toml.Quotation -- text between quotation marks

A text stands between double quotation marks or between apostrophes, and the mark may be tripled.
Which mark closes it is decided by cutting: the pieces between the marks are looked at one after
another, a piece that ends in an odd number of backslashes does not end the text, and nothing may
follow a piece that does (`closesOnce`).  This holds of both kinds of marks; only between double
quotation marks are escapes replaced.

Escapes are replaced in three rounds: `\u` with up to four digits, `\U` with up to eight, then
the short ones (`decode`).  A round sees what the round before has made, so a code that stands
for a backslash begins an escape of its own.

`quoteParts` cuts a line at its marks.  Its parts stand outside of quotes and within them by
turns; the cut respects marks of one kind within the other only up to the first text between
double quotation marks.
-/
import CodeAtlas.Fault

namespace CodeAtlas.Toml

set_option autoImplicit false

def isMark (c : Char) : Bool := c == '"' || c == '\''

/-- Does the text end in an odd number of backslashes? -/
def endsEscaping (t : Text) : Bool := (t.reverse.takeWhile (· == '\\')).length % 2 == 1

/-! ## Cutting a line -/

/-- Parts between apostrophes, and the pieces that are left: while an apostrophe is open, the
next piece belongs to the last part, and with it the mark in front of it. -/
def closeApostrophe : List Text → List Text → List Text × List Text
  | parts, [] => (parts, [])
  | parts, piece :: pieces =>
      if parts.length % 2 == 1 then (parts, piece :: pieces)
      else
        let longer := parts.getLastD [] ++ '"' :: piece
        closeApostrophe (parts.dropLast ++ Text.splitOn '\'' longer) pieces

/-- The parts of a line, outside and within quotes by turns. -/
def quoteParts (line : Text) : List Text :=
  match Text.splitOn '"' line with
  | first :: second :: rest =>
      if first.contains '\'' then
        match closeApostrophe (Text.splitOn '\'' first) (second :: rest) with
        | (parts, []) => parts
        | (parts, piece :: pieces) => parts ++ Text.splitOn '\'' piece ++ pieces
      else first :: second :: rest
  | pieces => pieces.flatMap (Text.splitOn '\'')

/-- How often `sep` stands within the parts before the first part outside of quotes that holds
it. -/
def countBefore (sep : Text) : Bool → List Text → Nat
  | _, [] => 0
  | within, part :: parts =>
      let count := (Text.splitOnText sep part).length - 1
      if !within && 0 < count then 0 else count + countBefore sep (!within) parts

/-! ## Escapes -/

def shortEscape? : Char → Option Char
  | '0' => some (Char.ofNat 0)
  | 'b' => some (Char.ofNat 8)
  | 'f' => some (Char.ofNat 12)
  | 'n' => some '\n'
  | 'r' => some '\r'
  | 't' => some '\t'
  | '"' => some '"'
  | '\\' => some '\\'
  | _ => none

/-- The text with its short escapes replaced, unless it has a backslash in front of anything
else; a backslash in front of a code stays. -/
def decodeShort? : Text → Option Text
  | [] => some []
  | ['\\'] => some ['\\']
  | '\\' :: c :: rest =>
      match shortEscape? c with
      | some e => (decodeShort? rest).map (e :: ·)
      | none =>
          if c == 'u' || c == 'U' then (decodeShort? rest).map fun t => '\\' :: c :: t else none
  | c :: rest => (decodeShort? rest).map (c :: ·)

def decodeShort (t : Text) : Except Fault Text := (decodeShort? t).elim (.error .unreadable) .ok

/-- A code from here on is not merely wrong but too large. -/
def codeLimit : Nat := Nat.pow 2 31

/-- A piece of text that begins with the digits of a code, of which there may be fewer than
`width` only at its end. -/
def decodeCode (width : Nat) (piece : Text) : Except Fault Text := do
  let some digits := (piece.take width).mapM Text.hexValue? | throw .unreadable
  match digits with
  | [] => throw .outOfRange
  | [13] => throw .outOfRange
  | 13 :: second :: _ => if 7 < second then throw .unreadable
  | _ => pure ()
  let code := digits.foldl (fun n d => 16 * n + d) 0
  if codeLimit ≤ code then throw .tooLarge
  if !code.isValidChar then throw .unreadable
  return Char.ofNat code :: piece.drop width

/-- Add what follows one more code mark; the flag says whether the mark is escaped. -/
def addPiece (mark : Char) (width : Nat) (done : Text × Bool) (piece : Text) :
    Except Fault (Text × Bool) :=
  if done.2 then .ok (done.1 ++ '\\' :: mark :: piece, endsEscaping piece)
  else (decodeCode width piece).map fun text => (done.1 ++ text, false)

/-- The text with every code after `\` and `mark` replaced.  The codes up to the first one that
is not escaped itself are looked at for a backslash in front; all further ones are taken. -/
def decodeCodes (mark : Char) (width : Nat) (t : Text) : Except Fault Text :=
  match Text.splitOnText ['\\', mark] t with
  | [] => .ok []
  | first :: pieces =>
      (pieces.foldlM (addPiece mark width) (first, endsEscaping first)).map (·.1)

/-- The text with its escapes replaced. -/
def decode (t : Text) : Except Fault Text := do
  let _ ← decodeShort t
  decodeShort (← decodeCodes 'U' 8 (← decodeCodes 'u' 4 t))

/-! ## Texts -/

/-- Does nothing follow the piece that closes the text?  `run` counts the marks that have stood
side by side in a text between tripled marks. -/
def closesOnce (tripled : Bool) : Bool → Nat → List Text → Bool
  | _, _, [] => true
  | closed, run, piece :: pieces =>
      if piece.isEmpty then closesOnce tripled (closed || !tripled) (run + 1) pieces
      else if endsEscaping piece then closesOnce tripled closed run pieces
      else if closed then false
      else if !tripled || 1 < run then closesOnce tripled true run pieces
      else closesOnce tripled false 0 pieces

/-- The text within tripled marks or single ones. -/
def withinMarks (mark : Char) (t : Text) : Text :=
  let tripled := t[1]? == some mark && (t.length < 3 || t[2]? == some mark)
  Text.inner 1 (if tripled then Text.inner 2 t else t)

/-- The text that `t` spells, the marks included. -/
def readQuoted (mark : Char) (t : Text) : Except Fault Text := do
  let closed := match Text.splitOn mark (t.drop 1) with
    | [] :: [] :: pieces => closesOnce true false 0 pieces
    | pieces => closesOnce false false 0 pieces
  if !closed then throw .unreadable
  return withinMarks mark (← if mark == '"' then decode t else pure t)

end CodeAtlas.Toml
