/-
# Naming.Suggestion -- better names for groups

A suggestion says that a group should rather have another name, and on what basis:

* two names have the same canonical words;
* two names look alike, as typed or normalized, at least as much as a threshold asks;
* several names without a hierarchy begin with the same canonical words, and should be put below
  a common parent.

Of two names of a pair, the one used more often is kept, then the longer one, then the one that
comes first (`betterName`).  For the third basis every name is first listed under each of its
prefixes of one to three words that leave a word over (`prefixIndex`).  Then each name gets at most
one suggestion, with the longest of its prefixes under which another name is listed, too
(`sharedPrefix?`).

A list of names is the distinct non-empty functionalities in order of first use.
-/
import CodeAtlas.Group
import CodeAtlas.Naming.Canonical
import CodeAtlas.Naming.EditDistance
import CodeAtlas.Number.Percent

namespace CodeAtlas.Naming

set_option autoImplicit false

/-! ## Suggestions -/

/-- What a suggestion rests on. -/
inductive Basis where
  | sameMeaning
  | alike (similarity : Float)
  | sharedPrefix (members : Nat) (parent : Text)

structure Suggestion where
  current : Text
  suggested : Text
  basis : Basis

namespace Basis

/-- The word for the kind of a suggestion. -/
def kind : Basis → Text
  | .sameMeaning => "similar"
  | .alike _ => "similar"
  | .sharedPrefix _ _ => "hierarchy"

/-- The confidence that a number of names with a common prefix gives. -/
def prefixConfidence (members : Nat) : Float :=
  let c := 0.7 + count members * 0.1
  if 0.95 < c then 0.95 else c

def confidence : Basis → Float
  | .sameMeaning => 1.0
  | .alike similarity => similarity
  | .sharedPrefix members _ => prefixConfidence members

end Basis

namespace Suggestion

def confidence (s : Suggestion) : Float := s.basis.confidence

/-- Why the name is suggested. -/
def reason (s : Suggestion) : Text :=
  match s.basis with
  | .sameMeaning =>
      "Semantically identical to \"" ++ s.suggested ++ "\" (same meaning, different wording)"
  | .alike similarity =>
      "Very similar to \"" ++ s.suggested ++ "\" (" ++ Number.showPercent similarity ++ " match)"
  | .sharedPrefix members parent =>
      "Found " ++ Number.showNat members ++ " groups starting with \"" ++ parent ++ "\""

end Suggestion

/-! ## Names -/

/-- The distinct functionalities that are not empty. -/
def names (groups : List Group) : List Text :=
  Text.distinct ((groups.map (·.functionality)).filter (!·.isEmpty))

/-- How often a name is used. -/
def uses (groups : List Group) (name : Text) : Nat :=
  groups.countP (·.functionality == name)

/-- The name that is used more, else the longer one, else the first in order. -/
def betterName (groups : List Group) (a b : Text) : Text :=
  if uses groups a != uses groups b then
    if uses groups b < uses groups a then a else b
  else if a.length != b.length then
    if b.length < a.length then a else b
  else if Text.le a b then a else b

/-! ## Names that are alike -/

/-- The similarity of two names, as typed or normalized, whichever is greater. -/
def likeness (a b : Text) : Float :=
  let typed := similarity a b
  let normal := similarity (normalize a) (normalize b)
  if typed < normal then normal else typed

/-- Why two names should be one, if they should. -/
def pairBasis? (threshold : Float) (a b : Text) : Option Basis :=
  if normalize a == normalize b then some .sameMeaning
  else if likeness a b < threshold then none
  else some (.alike (likeness a b))

/-- The suggestion for a pair of names. -/
def forPair? (threshold : Float) (groups : List Group) (pair : Text × Text) :
    Option Suggestion :=
  (pairBasis? threshold pair.1 pair.2).map fun basis =>
    let suggested := betterName groups pair.1 pair.2
    { current := if suggested == pair.1 then pair.2 else pair.1, suggested, basis }

/-- A suggestion for every pair of names that are alike. -/
def similarNames (threshold : Float) (groups : List Group) : List Suggestion :=
  (Text.pairs (names groups)).filterMap (forPair? threshold groups)

/-- How alike names must be in general. -/
def similarThreshold : Float := 0.8

/-- How alike names must be for an analysis of all groups. -/
def analysisThreshold : Float := 0.75

/-! ## Names with a common prefix -/

/-- Most words of a prefix. -/
def maxPrefixWords : Nat := 3

/-- A name and its canonical words. -/
abbrev WordedName := Text × List Text

/-- The names without a hierarchy. -/
def flatNames (groups : List Group) : List WordedName :=
  ((names groups).filter (!·.contains Hierarchy.delimiter)).map fun n => (n, canonicalWords n)

/-- The longest prefix of the words that may be shared leaves one word over. -/
def longestPrefix (words : List Text) : Nat := min maxPrefixWords (words.length - 1)

/-- The prefixes of the words that may be shared, the shortest first. -/
def prefixes (words : List Text) : List (List Text) :=
  (List.range (longestPrefix words)).map fun i => words.take (i + 1)

/-- What a prefix is listed under.  No word holds a space, so different prefixes have different
keys. -/
def prefixKey (start : List Text) : Text := Text.join " " start

/-- The names under each of their prefixes. -/
def prefixIndex (flat : List WordedName) : Entries (List Text) :=
  flat.foldl (fun e n =>
    (prefixes n.2).foldl (fun e start => Entries.push e (prefixKey start) n.1) e) []

/-- How many names are listed under a prefix. -/
def sharing (index : Entries (List Text)) (start : List Text) : Nat :=
  ((index.get? (prefixKey start)).getD []).length

/-- The length of the longest prefix shared with another name, at most `size`. -/
def sharedPrefix? (index : Entries (List Text)) (words : List Text) : Nat → Option Nat
  | 0 => none
  | size + 1 =>
      if sharing index (words.take (size + 1)) < 2 then sharedPrefix? index words size
      else some (size + 1)

/-- The suggestion for a name without a hierarchy. -/
def forFlatName? (index : Entries (List Text)) (n : WordedName) : Option Suggestion :=
  (sharedPrefix? index n.2 (longestPrefix n.2)).map fun size =>
    let parent := title (n.2.take size)
    { current := n.1
      suggested := Hierarchy.format [parent, title (n.2.drop size)]
      basis := .sharedPrefix (sharing index (n.2.take size)) parent }

/-- A suggestion for every name that shares a prefix with another. -/
def hierarchies (groups : List Group) : List Suggestion :=
  let flat := flatNames groups
  flat.filterMap (forFlatName? (prefixIndex flat))

/-! ## Questions about one name -/

/-- How alike two normalized names must be to count as the same. -/
def sameNameThreshold : Float := 0.85

/-- An existing name that a new one repeats, and why. -/
structure Repetition where
  existing : Text
  basis : Basis

/-- The first existing name that a new one repeats. -/
def repetition? (name : Text) (existing : List Text) : Option Repetition :=
  existing.findSome? fun other =>
    let alike := similarity (normalize name) (normalize other)
    if normalize name == normalize other then some ⟨other, .sameMeaning⟩
    else if sameNameThreshold ≤ alike then some ⟨other, .alike alike⟩
    else none

/-- Why a name repeats an existing one. -/
def Repetition.reason (r : Repetition) (name : Text) : Text :=
  match r.basis with
  | .alike alike =>
      "\"" ++ name ++ "\" is " ++ Number.showPercent alike ++ " similar to \"" ++ r.existing ++ "\""
  | _ =>
      "\"" ++ name ++ "\" is semantically identical to \"" ++ r.existing ++
        "\" (both normalize to \"" ++ normalize name ++ "\")"

/-- The existing name that a new one repeats. -/
def matchingName? (name : Text) (groups : List Group) : Option Text :=
  (repetition? name (names groups)).map (·.existing)

/-- The first suggestion to call the new name otherwise, when it is added to the groups. -/
def bestMatch? (name : Text) (groups : List Group) : Option Suggestion :=
  (similarNames analysisThreshold
    (groups ++ [{ functionality := name, filePath := [], lines := [] }])).find? fun s =>
      Text.lower s.current == Text.lower name

/-- The name with a hierarchy that is suggested for a name, if it is one of the flat names. -/
def suggestedName? (name : Text) (groups : List Group) : Option Text :=
  if (Text.words (normalize name)).length < 2 then none
  else ((hierarchies groups).find? fun s => normalize s.current == normalize name).map
    (·.suggested)

/-! ## All suggestions -/

structure Analysis where
  similar : List Suggestion
  hierarchies : List Suggestion

namespace Analysis

def ofGroups (groups : List Group) : Analysis :=
  { similar := similarNames analysisThreshold groups, hierarchies := Naming.hierarchies groups }

/-- All suggestions, the most confident ones first. -/
def all (a : Analysis) : List Suggestion :=
  (a.similar ++ a.hierarchies).mergeSort fun s t => decide (t.confidence ≤ s.confidence)

end Analysis

end CodeAtlas.Naming
