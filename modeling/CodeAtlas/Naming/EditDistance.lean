/-
# Naming.EditDistance -- how far two names are apart

The distance of two texts is the least number of insertions, deletions and substitutions of single
characters that turn one into the other.  `distance` computes it row by row: the row of a text
`s` against `t` lists the distances of `s` to every suffix of `t`, the longest first, and the row
of one more character in front needs only the row before it (`nextRow`).

`similarity` is one minus the distance in relation to the longer length, both texts lower-cased;
it is 1 for equal texts, and 0 when only one of them is empty.
-/
import CodeAtlas.Text.Case

namespace CodeAtlas.Naming

set_option autoImplicit false

/-! ## Distance -/

/-- The distances of the empty text to the suffixes of `t`. -/
def emptyRow : Text → List Nat
  | [] => [0]
  | _ :: t => (t.length + 1) :: emptyRow t

/-- The row of `c` in front of a text, from that text's row. -/
def nextRow (c : Char) : Text → List Nat → List Nat
  | [], row => [row.headD 0 + 1]
  | d :: t, row =>
      let right := nextRow c t row.tail
      let diagonal := row.tail.headD 0
      (if c == d then diagonal else min diagonal (min (right.headD 0) (row.headD 0)) + 1) :: right

/-- The distances of `s` to the suffixes of `t`. -/
def row (s t : Text) : List Nat := s.foldr (fun c below => nextRow c t below) (emptyRow t)

/-- The least number of single-character edits between two texts. -/
def distance (s t : Text) : Nat := (row s t).headD 0

/-! ## Similarity -/

/-- A count as a floating-point number. -/
def count (n : Nat) : Float := Float.ofScientific n false 0

def similarity (a b : Text) : Float :=
  let s := Text.lower a
  let t := Text.lower b
  if s == t then 1.0
  else if s.isEmpty || t.isEmpty then 0.0
  else 1.0 - count (distance s t) / count (max s.length t.length)

end CodeAtlas.Naming
