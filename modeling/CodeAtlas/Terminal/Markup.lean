/-
# Terminal.Markup -- tags in square brackets

Markup is text with tags that say how the text between them is to look: `[bold]` begins and
`[/bold]` ends.  What follows the bracket of a tag is a lower-case letter or one of `#`, `/`, `@`,
and there is no further bracket in it.  Of the backslashes in front of a tag two stand for one, and
an odd one makes an ordinary text of the tag.

`escape` turns text into markup for it.  `shown` is markup where there are no styles: tags vanish.
Text without brackets is its own markup, and a backslash in front of a bracket that begins no tag
vanishes too.  Emoji written by name become signs, in a text that is escaped no less; no name
reaches across a tag.
-/
import CodeAtlas.Terminal.Emoji
import CodeAtlas.Terminal.Line

namespace CodeAtlas.Terminal

set_option autoImplicit false

namespace Markup

/-! ## Pieces -/

/-- May a tag begin with this character? -/
def beginsTag (c : Char) : Bool := ('a' ≤ c && c ≤ 'z') || c == '#' || c == '/' || c == '@'

def isBracket (c : Char) : Bool := c == '[' || c == ']'

/-- The tag at the start of a text, brackets and all, and the text after it. -/
def tag? : Text → Option (Text × Text)
  | '[' :: c :: t =>
      if beginsTag c then
        match t.dropWhile (!isBracket ·) with
        | ']' :: rest => some ('[' :: c :: t.takeWhile (!isBracket ·) ++ [']'], rest)
        | _ => none
      else none
  | _ => none

inductive Body where
  | tag (t : Text)
  | char (c : Char)
  /-- The end of the text. -/
  | nothing
  deriving DecidableEq, Repr

/-- A tag or another character than a backslash, with the backslashes in front of it. -/
structure Piece where
  slashes : Nat
  body : Body
  deriving DecidableEq, Repr

theorem length_tag? {t tag rest : Text} (h : tag? t = some (tag, rest)) :
    rest.length < t.length := by
  unfold tag? at h
  split at h
  · rename_i c t
    split at h
    · have := Text.length_dropWhile_le (!isBracket ·) t
      split at h
      · simp_all; omega
      · simp at h
    · simp at h
  · simp at h

def pieces (t : Text) : List Piece :=
  let slashes := (t.takeWhile (· == '\\')).length
  match _h : t.dropWhile (· == '\\') with
  | [] => if slashes = 0 then [] else [⟨slashes, .nothing⟩]
  | c :: rest =>
      match _h' : tag? (c :: rest) with
      | some (tag, rest') => ⟨slashes, .tag tag⟩ :: pieces rest'
      | none => ⟨slashes, .char c⟩ :: pieces rest
termination_by t.length
decreasing_by
  · have h₁ := Text.length_dropWhile_le (· == '\\') t
    have h₂ := length_tag? _h'
    rw [_h] at h₁
    omega
  · have h₁ := Text.length_dropWhile_le (· == '\\') t
    rw [_h, List.length_cons] at h₁
    omega

/-! ## Writing -/

def backslashes (n : Nat) : Text := List.replicate n '\\'

/-- A piece of a text as markup. -/
def Piece.escaped : Piece → Text
  | ⟨n, .tag t⟩ => backslashes (2 * n + 1) ++ t
  | ⟨n, .char c⟩ => backslashes n ++ [c]
  | ⟨n, .nothing⟩ => backslashes n

/-- A single backslash at the end is doubled. -/
def guardEnd (t : Text) : Text :=
  if (t.reverse.takeWhile (· == '\\')).length = 1 then t ++ ['\\'] else t

/-- Markup for a text. -/
def escape (t : Text) : Text := guardEnd ((pieces t).flatMap Piece.escaped)

/-! ## Showing -/

/-- A piece of markup without styles. -/
def Piece.shown : Piece → Text
  | ⟨n, .tag t⟩ => backslashes (n / 2) ++ if n % 2 = 1 then t else []
  | ⟨n, .char c⟩ => backslashes (if c == '[' then n - 1 else n) ++ [c]
  | ⟨n, .nothing⟩ => backslashes n

def Piece.isTag (p : Piece) : Bool := p.body matches .tag _

/-- The texts between the tags, and those of the tags that are ordinary text. -/
def stretches (t : Text) : List Text :=
  if t.contains '[' then
    ((pieces t).splitBy fun p q => !p.isTag && !q.isTag).map (·.flatMap Piece.shown)
  else [t]

/-- Markup as it is seen without styles. -/
def shown (t : Text) : Text := withoutControls ((stretches t).flatMap Emoji.expand)

/-- A text as it is seen when it is written as markup. -/
def literal (t : Text) : Text := shown (escape t)

end Markup

end CodeAtlas.Terminal
