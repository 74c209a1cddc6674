/-
# Text.Basic -- text as the list of its code points

Every length, slice, position and edit in this library counts code points, so text *is* the list
of its code points and the list lemmas apply to it as they stand.  A string literal stands for
its list of characters.

White space is the Unicode class, together with the four separators `U+001C` to `U+001F`
(`isBlankChar`); the zero-width space and the byte order mark are not in it.  `trim` drops a
longest run of white space at both ends, `words` cuts at every run of white space and keeps no
empty word, `splitOn` cuts at every occurrence of one character and keeps every piece.

Two texts are ordered by the first place where they differ (`le`), code points by their number.
-/

namespace CodeAtlas

set_option autoImplicit false

/-- A text is the list of its code points. -/
abbrev Text := List Char

instance : Coe String Text := ⟨String.toList⟩

namespace Text

/-! ## Classes of characters -/

/-- Is `n` in one of the inclusive ranges? -/
def inRanges (ranges : List (Nat × Nat)) (n : Nat) : Bool :=
  ranges.any fun r => r.1 ≤ n && n ≤ r.2

/-- White space beyond `U+007F`. -/
def blankRanges : List (Nat × Nat) :=
  [(133, 133), (160, 160), (5760, 5760), (8192, 8202), (8232, 8233), (8239, 8239), (8287, 8287),
   (12288, 12288)]

/-- White space: tab to carriage return, the separators `U+001C` to `U+001F`, the space, and the
Unicode spaces. -/
def isBlankChar (c : Char) : Bool :=
  let n := c.toNat
  (9 ≤ n && n ≤ 13) || (28 ≤ n && n ≤ 32) || inRanges blankRanges n

/-- Nothing but white space. -/
def isBlank (t : Text) : Bool := t.all isBlankChar

/-! ## Trimming -/

def trimLeft (t : Text) : Text := t.dropWhile isBlankChar

def dropWhileEnd (p : Char → Bool) (t : Text) : Text := (t.reverse.dropWhile p).reverse

def trimRight (t : Text) : Text := dropWhileEnd isBlankChar t

/-- The text without white space at its ends. -/
def trim (t : Text) : Text := trimRight (trimLeft t)

/-- The number of white-space characters in front. -/
def indentation (t : Text) : Nat := (t.takeWhile isBlankChar).length

/-! ## Cutting and joining -/

/-- The pieces between the occurrences of `sep`; always at least one. -/
def splitOn (sep : Char) : Text → List Text
  | [] => [[]]
  | c :: rest =>
      if c == sep then [] :: splitOn sep rest
      else match splitOn sep rest with
        | [] => [[c]]
        | piece :: pieces => (c :: piece) :: pieces

/-- The pieces with `sep` between them. -/
def join (sep : Text) (pieces : List Text) : Text := List.intercalate sep pieces

theorem length_dropWhile_le {α : Type} (p : α → Bool) (l : List α) :
    (l.dropWhile p).length ≤ l.length := by
  induction l with
  | nil => simp
  | cons a l ih =>
      simp only [List.dropWhile_cons]
      split
      · simp only [List.length_cons]
        omega
      · exact Nat.le_refl _

/-- The maximal runs without white space, in order. -/
def words (t : Text) : List Text :=
  match _h : t.dropWhile isBlankChar with
  | [] => []
  | c :: rest =>
      (c :: rest.takeWhile (!isBlankChar ·)) :: words (rest.dropWhile (!isBlankChar ·))
termination_by t.length
decreasing_by
  have h₁ := length_dropWhile_le isBlankChar t
  have h₂ := length_dropWhile_le (fun c => !isBlankChar c) rest
  simp_all only [List.length_cons]
  omega

/-- The pieces between the occurrences of `sep`, taken from left to right; `sep` is not empty. -/
def splitOnText (sep : Text) (t : Text) : List Text :=
  match t with
  | [] => [[]]
  | c :: rest =>
      if sep.isPrefixOf (c :: rest) && !sep.isEmpty then
        [] :: splitOnText sep (rest.drop (sep.length - 1))
      else match splitOnText sep rest with
        | [] => [[c]]
        | piece :: pieces => (c :: piece) :: pieces
termination_by t.length
decreasing_by all_goals simp [List.length_drop]; try omega

/-- The text before the first `sep`, and the text after it if there is one. -/
def cut (sep : Char) (t : Text) : Text × Option Text :=
  (t.takeWhile (· != sep), (t.dropWhile (· != sep)).tail?)

/-- The text without `n` characters at either end. -/
def inner (n : Nat) (t : Text) : Text := (t.take (t.length - n)).drop n

/-! ## Finding -/

/-- The text after `start`, if it begins so. -/
def after? : Text → Text → Option Text
  | [], t => some t
  | _ :: _, [] => none
  | a :: start, c :: t => if a == c then after? start t else none

theorem after?_eq_some_iff {start t rest : Text} :
    after? start t = some rest ↔ t = start ++ rest := by
  induction start generalizing t with
  | nil => simp [after?]
  | cons a start ih =>
      cases t with
      | nil => simp [after?]
      | cons c t =>
          by_cases h : a = c
          · simp [after?, h, ih]
          · simp [after?, h, Ne.symm h]

/-- Position of the first occurrence of `needle`. -/
def find? (needle : Text) : Text → Option Nat
  | [] => if needle.isEmpty then some 0 else none
  | c :: t => if needle.isPrefixOf (c :: t) then some 0 else (find? needle t).map (· + 1)

/-- Every occurrence of `old` replaced by `new`, from left to right; `old` is not empty. -/
def replace (old new : Text) (t : Text) : Text :=
  match t with
  | [] => []
  | c :: rest =>
      if old.isPrefixOf (c :: rest) && !old.isEmpty then
        new ++ replace old new (rest.drop (old.length - 1))
      else c :: replace old new rest
termination_by t.length
decreasing_by all_goals simp [List.length_drop]; try omega

/-! ## Order -/

/-- Order by code points. -/
def le : Text → Text → Bool
  | [], _ => true
  | _ :: _, [] => false
  | a :: s, b :: t => a.toNat < b.toNat || (a == b && le s t)

/-- Ascending, repetitions kept. -/
def sort (ts : List Text) : List Text := ts.mergeSort le

/-! ## Lists -/

/-- Each member once, at its first place. -/
def distinct {α : Type} [BEq α] (l : List α) : List α :=
  l.foldl (fun seen a => if seen.contains a then seen else seen ++ [a]) []

/-- Every pair of members, the earlier one first. -/
def pairs {α : Type} : List α → List (α × α)
  | [] => []
  | a :: rest => rest.map (a, ·) ++ pairs rest

end Text

end CodeAtlas
