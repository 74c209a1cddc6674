/-
# Terminal.Table -- tables in boxes

A table is drawn in box characters: its title above, centred, a heading in heavy lines, and the
rows in light ones.  A column is as wide as its widest cell, with a blank on either side; cells
stand at the left, numbers at the right.  A cell with several lines makes its whole row higher.  A
tab has no width in a column, so the line of a cell that has one may have to be broken.
-/
import CodeAtlas.Terminal.Wrap

namespace CodeAtlas.Terminal

set_option autoImplicit false

structure Column where
  heading : Text := []
  /-- Do the cells stand at the right? -/
  numeric : Bool := false

structure Table where
  title : Text
  columns : List Column
  /-- Is the heading drawn? -/
  headed : Bool := true
  /-- The cells, row by row. -/
  rows : List (List Text)

namespace Table

/-! ## Measures -/

/-- The cells of all columns, that of the heading first. -/
def allRows (t : Table) : List (List Text) :=
  if t.headed then t.columns.map (·.heading) :: t.rows else t.rows

/-- The width of every column. -/
def widths (t : Table) : List Nat :=
  (List.range t.columns.length).map fun i =>
    (t.allRows.map fun row => widest (row.getD i [])).foldl max 0

/-- The width of the whole table. -/
def width (t : Table) : Nat := (t.widths.map (· + 3)).foldr (· + ·) 1

/-! ## Drawing -/

/-- A line across the table: its ends, its filling, and where it crosses the columns. -/
def rule (left fill crossing right : Char) (widths : List Nat) : Text :=
  [left] ++ Text.join [crossing] (widths.map fun w => List.replicate (w + 2) fill) ++ [right]

/-- One line of cells. -/
def cellLine (border : Char) (columns : List Column) (widths : List Nat) (cells : List Text) :
    Text :=
  let filled := (columns.zip (widths.zip cells)).map fun (column, w, cell) =>
    ' ' :: (if column.numeric then alignRight w cell else alignLeft w cell) ++ [' ']
  [border] ++ Text.join [border] filled ++ [border]

/-- The lines of a row. -/
def rowLines (border : Char) (columns : List Column) (widths : List Nat) (row : List Text) :
    List Text :=
  let cells := (row.zip widths).map fun (cell, w) => (linesOf cell).flatMap (wrap .cut w)
  (List.range ((cells.map List.length).foldl max 0)).map fun i =>
    cellLine border columns widths (cells.map fun lines => lines.getD i [])

def lines (t : Table) : List Text :=
  let ws := t.widths
  let heading :=
    if t.headed then
      [rule '┏' '━' '┳' '┓' ws] ++ rowLines '┃' t.columns ws (t.columns.map (·.heading)) ++
        [rule '┡' '━' '╇' '┩' ws]
    else [rule '┌' '─' '┬' '┐' ws]
  [centre t.width t.title] ++ heading ++ t.rows.flatMap (rowLines '│' t.columns ws) ++
    [rule '└' '─' '┴' '┘' ws]

end Table

end CodeAtlas.Terminal
