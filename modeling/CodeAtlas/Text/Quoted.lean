/-
# Text.Quoted -- text shown between quotation marks

The written form of a text as a literal: apostrophes around it, unless it holds an apostrophe and
no double quote, in which case double quotes are used (`quoteMark`).  Inside, a backslash and the
mark in use are preceded by a backslash, tab, line feed and carriage return are written `\t`,
`\n`, `\r`, every other character that is not printable as `\x`, `\u` or `\U` with two, four or
eight hexadecimal digits, and all else as itself.
-/
import CodeAtlas.Text.Printable

namespace CodeAtlas.Text

set_option autoImplicit false

/-- `n` in `width` lower-case hexadecimal digits; higher digits are dropped. -/
def hex : Nat → Nat → Text
  | 0, _ => []
  | width + 1, n => hex width (n / 16) ++ [Nat.digitChar (n % 16)]

/-- A character by its number, in the shortest of the three escape forms. -/
def numericEscape (c : Char) : Text :=
  let n := c.toNat
  if n < 0x100 then '\\' :: 'x' :: hex 2 n
  else if n < 0x10000 then '\\' :: 'u' :: hex 4 n
  else '\\' :: 'U' :: hex 8 n

def escapeWithin (mark : Char) (c : Char) : Text :=
  if c == mark || c == '\\' then ['\\', c]
  else if c == '\t' then "\\t"
  else if c == '\n' then "\\n"
  else if c == '\r' then "\\r"
  else if isPrintable c then [c]
  else numericEscape c

def quoteMark (t : Text) : Char :=
  if t.contains '\'' && !t.contains '"' then '"' else '\''

def quoted (t : Text) : Text :=
  let mark := quoteMark t
  mark :: t.flatMap (escapeWithin mark) ++ [mark]

end CodeAtlas.Text
