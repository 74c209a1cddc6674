/-
# Terminal.Line -- text as it stands on a line

A tab is drawn as blanks up to the next tab stop, and the control characters that would ring a bell
or move back have no place in a line.  `alignLeft`, `alignRight` and `centre` fill a line with
blanks up to a number of columns; a line that is already longer stays as it is.  When a line is
centred, the odd blank is put after it.

Colour sequences are for terminals alone: an escape character, a bracket, numbers, and a letter.
-/
import CodeAtlas.Terminal.Width
import CodeAtlas.Text.Utf8

namespace CodeAtlas.Terminal

set_option autoImplicit false

/-- The columns of the longest line of a text. -/
def widest (t : Text) : Nat := ((Text.lines t).map columns).foldl max 0

/-! ## Filling up -/

def blanks (n : Nat) : Text := List.replicate n ' '

def alignLeft (width : Nat) (t : Text) : Text := t ++ blanks (width - columns t)

def alignRight (width : Nat) (t : Text) : Text := blanks (width - columns t) ++ t

def centre (width : Nat) (t : Text) : Text :=
  let before := (width - columns t) / 2
  blanks before ++ t ++ blanks (width - columns t - before)

/-! ## Control characters -/

/-- Bell, backspace, line tabulation, form feed and carriage return. -/
def isControl (c : Char) : Bool := [7, 8, 11, 12, 13].contains c.toNat

def withoutControls (t : Text) : Text := t.filter (!isControl ·)

/-! ## Tabs -/

/-- Columns from one tab stop to the next. -/
def tabWidth : Nat := 8

/-- Pieces with a tab between them; `column` is where the first begins.  A tab is a blank, and as
many more as lead to the next stop. -/
def joinAtStops (column : Nat) : List Text → Text
  | [] => []
  | [piece] => piece
  | piece :: rest =>
      let reached := column + columns (piece ++ [' '])
      let more := (tabWidth - reached % tabWidth) % tabWidth
      piece ++ ' ' :: blanks more ++ joinAtStops (reached + more) rest

/-- The line with blanks for its tabs. -/
def expandTabs (line : Text) : Text := joinAtStops 0 (Text.splitOn '\t' line)

/-- The lines of a text, each with blanks for its tabs. -/
def linesOf (t : Text) : List Text := (Text.splitOn '\n' t).map expandTabs

/-! ## Colour sequences -/

/-- The text after the colour sequence it begins with. -/
def afterColour? : Text → Option Text
  | '\x1b' :: '[' :: t =>
      match t.dropWhile fun c => c == ';' || c == '?' || c.isDigit with
      | c :: rest => if c.isAlpha then some rest else none
      | [] => none
  | _ => none

theorem length_afterColour? {t rest : Text} (h : afterColour? t = some rest) :
    rest.length < t.length := by
  unfold afterColour? at h
  split at h
  · rename_i t
    have := Text.length_dropWhile_le (fun c => c == ';' || c == '?' || c.isDigit) t
    split at h
    · rename_i heq
      split at h
      · simp_all; omega
      · simp at h
    · simp at h
  · simp at h

/-- The text without colour sequences. -/
def withoutColours (t : Text) : Text :=
  match _h : afterColour? t with
  | some rest => withoutColours rest
  | none =>
      match t with
      | [] => []
      | c :: rest => c :: withoutColours rest
termination_by t.length
decreasing_by
  · exact length_afterColour? _h
  · simp

end CodeAtlas.Terminal
