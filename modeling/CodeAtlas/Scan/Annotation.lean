/-
# Scan.Annotation -- what a comment says

An annotation pattern finds the name of a functionality in its first group and a description in
its second.  The main pattern of a language table is tried first; only when it finds nothing, the
additional patterns of the language are tried in their order, and the first that finds something
decides (`read`).  The name is trimmed and lower-cased, the description trimmed; a comment whose
name comes out empty is no annotation, even if a later pattern would have found one.  A pattern
without a second group gives no description; one without a first group cannot be used.

`direct` is the same reading for the packaged pattern without any pattern machinery: it looks for
the word `@group`, white space after it, and takes the text up to the first colon as the name and
the text after it as the description.
-/
import CodeAtlas.Fault
import CodeAtlas.Pattern.Basic

namespace CodeAtlas.Scan

set_option autoImplicit false

/-- A functionality and what is said about it. -/
structure Annotation where
  name : Text
  description : Text
  deriving DecidableEq, Repr

namespace Annotation

/-- The annotation with these raw parts, unless the name is empty. -/
def ofParts? (name description : Text) : Option Annotation :=
  let name' := Text.lower (Text.trim name)
  if name'.isEmpty then none else some ⟨name', Text.trim description⟩

/-- The annotation in the groups of a match. -/
def ofMatch (p : Pattern) (cs : Pattern.Captures) : Except Fault (Option Annotation) :=
  if p.groups = 0 then .error .outOfRange
  else .ok (ofParts? (Pattern.capture cs 1) (if 2 ≤ p.groups then Pattern.capture cs 2 else []))

/-- The first pattern that finds something in a text, with what it found. -/
def firstMatch? (patterns : List Pattern) (t : Text) : Option (Pattern × Pattern.Captures) :=
  patterns.findSome? fun p => (p.search t).map (p, ·)

/-- The annotation in the text of a comment. -/
def read (main : Pattern) (extras : Except Fault (List Pattern)) (t : Text) :
    Except Fault (Option Annotation) :=
  match main.search t with
  | some cs => ofMatch main cs
  | none => do
      match firstMatch? (← extras) t with
      | some (p, cs) => ofMatch p cs
      | none => return none

/-! ## The packaged pattern, directly -/

/-- The word that introduces an annotation. -/
def keyword : Text := "@group"

/-- The text after the keyword, if the text begins with it in any case. -/
def afterKeyword? (t : Text) : Option Text :=
  if (t.take keyword.length).map Char.toLower == keyword then some (t.drop keyword.length)
  else none

/-- The annotation in what follows one occurrence of the keyword: `none` when the occurrence is
to be passed over, `some none` when it is one but has no name. -/
def afterOccurrence (t : Text) : Option (Option Annotation) :=
  let blanks := t.takeWhile Text.isBlankChar
  let body := t.dropWhile Text.isBlankChar
  let nameless := body.isEmpty || body.head? == some ':'
  if blanks.isEmpty || (blanks.length == 1 && nameless) then none
  else if nameless then some none
  else
    let parts := Text.cut ':' body
    some (some ⟨Text.lower (Text.trim parts.1), Text.trim (parts.2.getD [])⟩)

/-- The first occurrence of the keyword that is not passed over decides; `none` when there is
none. -/
def direct : Text → Option (Option Annotation)
  | [] => none
  | c :: rest => ((afterKeyword? (c :: rest)).bind afterOccurrence) <|> direct rest

end Annotation

end CodeAtlas.Scan
