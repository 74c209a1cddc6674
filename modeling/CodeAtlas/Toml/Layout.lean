/-
# Toml.Layout -- a text laid out in lines

Before its lines are read one by one, a text is gone through character by character (`layOut`).
Comments become blanks, and so does a line break within brackets, so that each statement stands
on a line of its own; only a text of several lines still holds line breaks.  A line break right
after two equal quotation marks in such a text becomes a third mark, and the mark in front of the
two a blank: a line break after the opening marks is no part of the text.

On the way the keys are looked at: a key holds letters, digits, `_` and `-`, may be quoted, may
have points with blanks around them, and an equals sign follows it on the same line.  A line
break within a text that is not of several lines, a missing key, and a key or a text that is
still open at the end make the text unreadable.

To tell which quotation marks count, up to three characters before a mark are looked at, and all
backslashes before those.  The character before the first one is the last one.
-/
import CodeAtlas.Text.WordChar
import CodeAtlas.Toml.Quotation

namespace CodeAtlas.Toml

set_option autoImplicit false

/-- How far the key of a line has been read. -/
inductive KeyState where
  /-- The line has no key, or its key is complete. -/
  | outside
  /-- Within a part of the key. -/
  | within
  /-- After a part of the key. -/
  | after
  deriving DecidableEq, Repr

/-- The kind of header that is open. -/
inductive Header where
  | table
  | array
  deriving DecidableEq, Repr

structure Layout where
  /-- What has been laid out, last character first, and behind it the whole text, last character
  first. -/
  behind : Text
  /-- How many characters have been laid out. -/
  count : Nat := 0
  /-- The mark of the text that is open. -/
  mark : Option Char := none
  /-- Is a text of several lines open? -/
  tripled : Bool := false
  /-- Brackets of arrays that are open. -/
  brackets : Int := 0
  header : Option Header := none
  lineStart : Bool := true
  key : KeyState := .outside
  /-- Has the key a point? -/
  dotted : Bool := false
  comment : Bool := false

namespace Layout

def push (l : Layout) (c : Char) : Layout :=
  { l with behind := c :: l.behind, count := l.count + 1 }

/-- Does an odd number of backslashes stand before the next character? -/
def escaped (behind : Text) : Bool := (behind.takeWhile (· == '\\')).length % 2 == 1

/-! ## Keys -/

/-- The blank or the point after a part of a key; it has to be known what comes next. -/
def afterPart (l : Layout) (next : Option Char) : Except Fault Layout :=
  match next with
  | none => .error .outOfRange
  | some c =>
      .ok (if Text.isBlankChar c || c == '.' then l else { l with key := .within })

/-- The equals sign after a key. -/
def endKey (l : Layout) (c : Char) : Except Fault (Layout × Bool) :=
  if c == '=' then .ok ({ l with key := .outside, dotted := false }, false) else .error .unreadable

/-- A character of a key.  The flag tells whether the character is used up. -/
def stepKey (l : Layout) (c : Char) (next : Option Char) : Except Fault (Layout × Bool) :=
  if c == '\n' then .error .unreadable
  else match l.mark, l.key with
    | some m, _ =>
        if c == m && !escaped l.behind then
          .ok ({ l with key := .after, mark := none }, true)
        else .ok (l, true)
    | none, .after =>
        if Text.isBlankChar c then
          if l.dotted then (l.afterPart next).map (·, true) else .ok (l, true)
        else if c == '.' then ({ l with dotted := true }.afterPart next).map (·, true)
        else l.endKey c
    | none, _ =>
        if Text.isBlankChar c then .ok ({ l with key := .after }, true)
        else if c == '.' then .ok ({ l with dotted := true }, true)
        else if Text.isWordChar c || c == '-' then .ok (l, true)
        else if l.dotted && l.behind.head? == some '.' && isMark c then
          .ok ({ l with mark := some c }, true)
        else l.endKey c

/-! ## Texts, brackets and lines -/

/-- A quotation mark: the third in a row opens or closes a text of several lines, any other one
a text on a line. -/
def stepMark (l : Layout) (c : Char) : Layout :=
  let run := ((l.behind.take 2).takeWhile (· == c)).length
  let idle := c == '"' && run != 1 && escaped (l.behind.drop run)
  if !isMark c || l.mark.any (· != c) || idle then l
  else
    let opens := if run == 2 then !l.tripled else l.mark.isNone
    { l with
      tripled := if run == 2 then opens else l.tripled
      mark := if opens then some c else none }

/-- A bracket outside of texts. -/
def stepBracket (l : Layout) (c : Char) (next : Option Char) : Layout :=
  if l.mark.isSome then l
  else if c == '[' && l.header.isNone then
    if !l.lineStart then { l with brackets := l.brackets + 1 }
    else { l with header := some (if next == some '[' then .array else .table) }
  else if c == ']' then
    match l.header with
    | some .table => { l with header := none }
    | some .array => if l.behind.head? == some ']' then { l with header := none } else l
    | none => { l with brackets := l.brackets - 1 }
  else l

/-- A line break in a text of several lines. -/
def breakText (l : Layout) : Layout :=
  match l.behind with
  | a :: b :: rest =>
      if isMark a && b == a then
        match rest with
        | third :: rest' =>
            { l with behind := a :: b :: (if third == a then ' ' else third) :: rest' }.push a
        | [] => l.push a
      else l.push '\n'
  | _ => l.push '\n'

def breakLine (l : Layout) : Except Fault Layout :=
  if l.mark.isSome || l.tripled then if l.tripled then .ok l.breakText else .error .unreadable
  else if l.brackets != 0 then .ok (l.push ' ')
  else .ok ({ l with lineStart := true }.push '\n')

/-- The first character of a line begins a key unless it begins a header. -/
def beginLine (l : Layout) (c : Char) : Except Fault Layout :=
  if !l.lineStart || c == ' ' || c == '\t' then .ok l
  else if l.header.isSome then .ok { l with lineStart := false }
  else if c == '=' then .error .unreadable
  else .ok { l with lineStart := false, key := .within }

/-- One character, the one after it being known. -/
def step (l : Layout) (c : Char) (next : Option Char) : Except Fault Layout := do
  if l.comment && c != '\n' then return l.push ' '
  let (l, used) ←
    if l.key == .outside then pure ({ l with comment := false }, false) else l.stepKey c next
  if used then return l.push c
  let l := l.stepMark c
  if c == '#' && l.mark.isNone && l.header.isNone then return { l with comment := true }.push ' '
  let l := l.stepBracket c next
  if c == '\n' then l.breakLine else return (← l.beginLine c).push c

def run (l : Layout) : Text → Except Fault Layout
  | [] => .ok l
  | c :: rest => (l.step c rest.head?).bind fun l => l.run rest

end Layout

/-- The lines of a text. -/
def layOut (t : Text) : Except Fault (List Text) := do
  let l ← { behind := t.reverse : Layout }.run t
  if l.key != .outside || l.mark.isSome then throw .unreadable
  return Text.splitOn '\n' (l.behind.take l.count).reverse

end CodeAtlas.Toml
