/-
# Naming.Canonical -- the words behind a name

Two names that mean the same have the same *canonical words*: the name is lower-cased, the white
space between its words made single spaces, abbreviations are spelled out, and word forms folded.
The canonical words are in the order of the name; `normalize` sorts them, so that the order in
which a name puts its words does not matter either.

`substitute` replaces the words of a vocabulary where they stand between word boundaries, from
left to right, and never looks at what it has written.
-/
import CodeAtlas.Naming.Vocabulary
import CodeAtlas.Text.Case
import CodeAtlas.Text.WordChar

namespace CodeAtlas.Naming

set_option autoImplicit false

/-! ## Substitution -/

/-- Does `t` begin with `word`, and end or go on beyond a word boundary there? -/
def beginsWithWord (word t : Text) : Bool :=
  match Text.after? word t with
  | some rest => Text.isBoundary word.getLast? rest.head?
  | none => false

/-- The entry for the longest word at the beginning of `t`, if a word can begin after `before`. -/
def entryAt? (v : Vocabulary) (before : Option Char) (t : Text) : Option (Text × Text) :=
  if Text.isBoundary before t.head? then
    (v.filter fun entry => beginsWithWord entry.1 t).foldl (fun best entry =>
      match best with
      | some b => if b.1.length < entry.1.length then some entry else some b
      | none => some entry) none
  else none

/-- The text with every word of the vocabulary replaced; `before` is the character before it. -/
def substituteFrom (v : Vocabulary) (before : Option Char) (t : Text) : Text :=
  match t with
  | [] => []
  | c :: rest =>
      match entryAt? v before (c :: rest) with
      | some (word, new) => new ++ substituteFrom v word.getLast? (rest.drop (word.length - 1))
      | none => c :: substituteFrom v (some c) rest
termination_by t.length
decreasing_by all_goals simp [List.length_drop]; try omega

def substitute (v : Vocabulary) (t : Text) : Text := substituteFrom v none t

/-! ## Canonical words -/

/-- Lower case, single spaces. -/
def plain (name : Text) : Text := Text.join " " (Text.words (Text.lower name))

/-- The words of a name with abbreviations and word forms folded, in order. -/
def canonicalWords (name : Text) : List Text :=
  Text.words (substitute wordForms (substitute abbreviations (plain name)))

/-- The canonical words in ascending order. -/
def normalize (name : Text) : Text := Text.join " " (Text.sort (canonicalWords name))

/-- Words with their first characters in upper case. -/
def title (words : List Text) : Text := Text.join " " (words.map Text.capitalize)

end CodeAtlas.Naming
