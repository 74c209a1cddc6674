/-
# Terminal.Wrap -- lines that have to fit

`wrap` breaks a line so that every part fits into a number of columns.  A part takes as many words
as it can hold, with the blanks after them; blanks do not count at its end.  A word that is longer
than any part is either folded, so that it goes on in the next part, or cut, with an ellipsis in its
last column.  A line that fits is its own only part, but for blanks beyond the last column.

No text is lost in breaking (`flatten_chopFrom`, `flatten_fill`): what is dropped is dropped from
single parts.
-/
import CodeAtlas.Terminal.Line

namespace CodeAtlas.Terminal

set_option autoImplicit false

/-- What becomes of a word that is longer than a line. -/
inductive Overlong where
  | folded
  | cut
  deriving DecidableEq, Repr

/-! ## Breaking -/

/-- The words of a line, each with the blanks after it; the blanks in front belong to the first. -/
def wordsOf (line : Text) : List Text :=
  match line.splitBy fun a b => !Text.isBlankChar a || Text.isBlankChar b with
  | first :: second :: rest =>
      if Text.isBlank first then (first ++ second) :: rest else first :: second :: rest
  | words => words

/-- A text in parts of no more than `n` columns; `part` is the one to go on with. -/
def chopFrom (n : Nat) (part : Text) : Text → List Text
  | [] => [part]
  | c :: rest =>
      if columns part + width c ≤ n then chopFrom n (part ++ [c]) rest
      else part :: chopFrom n [c] rest

/-- The parts of a word. -/
def partsOf (overlong : Overlong) (n : Nat) (word : Text) : List Text :=
  if overlong = .folded && n < columns (Text.trimRight word) then chopFrom n [] word else [word]

/-- Words in parts of `n` columns; `part` is the one to go on with. -/
def fill (overlong : Overlong) (n : Nat) (part : Text) : List Text → List Text
  | [] => [part]
  | word :: rest =>
      if columns part + columns (Text.trimRight word) ≤ n then
        fill overlong n (part ++ word) rest
      else
        let parts := partsOf overlong n word
        (if part.isEmpty then [] else [part]) ++ parts.dropLast ++
          fill overlong n (parts.getLastD []) rest

theorem flatten_chopFrom (n : Nat) (part t : Text) : (chopFrom n part t).flatten = part ++ t := by
  induction t generalizing part with
  | nil => simp [chopFrom]
  | cons c t ih =>
      unfold chopFrom
      split
      · simp [ih]
      · simp [ih]

theorem flatten_partsOf (overlong : Overlong) (n : Nat) (word : Text) :
    (partsOf overlong n word).flatten = word := by
  unfold partsOf
  split
  · rw [flatten_chopFrom, List.nil_append]
  · simp

theorem flatten_dropLast_append (parts : List Text) :
    parts.dropLast.flatten ++ parts.getLastD [] = parts.flatten := by
  induction parts with
  | nil => rfl
  | cons a rest ih =>
      cases rest with
      | nil => simp
      | cons b rest =>
          simp only [List.dropLast_cons_cons, List.flatten_cons, List.getLastD_cons,
            List.append_assoc] at ih ⊢
          rw [ih]

/-- Filling keeps every character in its place. -/
theorem flatten_fill (overlong : Overlong) (n : Nat) (part : Text) (words : List Text) :
    (fill overlong n part words).flatten = part ++ words.flatten := by
  induction words generalizing part with
  | nil => simp [fill]
  | cons word rest ih =>
      unfold fill
      split
      · simp [ih]
      · have hp : (if part.isEmpty then ([] : List Text) else [part]).flatten = part := by
          cases part <;> simp
        simp only [List.flatten_append, hp, ih, List.flatten_cons]
        rw [List.append_assoc, ← List.append_assoc _ _ rest.flatten, flatten_dropLast_append,
          flatten_partsOf]

/-! ## Fitting -/

/-- Without the blanks at the end that are beyond the first `n` characters. -/
def withoutExcess (n : Nat) (line : Text) : Text :=
  let blankEnd := (line.reverse.takeWhile Text.isBlankChar).length
  line.take (line.length - min blankEnd (line.length - n))

/-- The first `n` columns; a blank stands for half a character. -/
def crop (n : Nat) : Text → Text
  | [] => []
  | c :: rest => if width c ≤ n then c :: crop (n - width c) rest else blanks n

/-- A part in at most `n` columns. -/
def shorten (overlong : Overlong) (n : Nat) (line : Text) : Text :=
  if columns line ≤ n then line
  else match overlong with
    | .folded => crop n line
    | .cut => crop (n - 1) line ++ ['…']

/-- The parts of a line that fit into `n` columns. -/
def wrap (overlong : Overlong) (n : Nat) (line : Text) : List Text :=
  (fill overlong n [] (wordsOf line)).map fun part => shorten overlong n (withoutExcess n part)

end CodeAtlas.Terminal
