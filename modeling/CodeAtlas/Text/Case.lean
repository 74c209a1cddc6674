/-
# Text.Case -- full case mapping

`lower` is the full lower-casing of the Unicode standard.  Three things set it apart from a
character-wise map:

* `İ` becomes two characters (`lowerExpansions`);
* a capital sigma that ends a word becomes `ς`, any other `σ`.  It ends a word when the nearest
  character before it that is not case-ignorable has a case, and the nearest such character
  after it has none (`lowerFrom` carries the first half of that condition along);
* everything else is mapped by itself.

White space has no case and is not case-ignorable, so lower-casing never looks across it.

`sameIgnoringCase` compares two characters by their simple lower-case images and the few
siblings such as `ı` and `i`.
-/
import CodeAtlas.Text.CaseTable

namespace CodeAtlas.Text

set_option autoImplicit false

/-! ## One character -/

def isCased (c : Char) : Bool := inRanges casedRanges c.toNat

def isCaseIgnorable (c : Char) : Bool := inRanges caseIgnorableRanges c.toNat

/-- The image of a character under a table of runs and expansions. -/
def caseImage (runs : List ShiftRun) (expansions : List (Nat × List Nat)) (c : Char) : Text :=
  match runs.findSome? (·.image? c.toNat) with
  | some n => [Char.ofNat n]
  | none =>
      match expansions.lookup c.toNat with
      | some ns => ns.map Char.ofNat
      | none => [c]

/-- Lower case of one character, out of context. -/
def lowerImage (c : Char) : Text :=
  if c.toNat < 128 then [c.toLower] else caseImage lowerRuns lowerExpansions c

/-- Upper case of one character; `ß` gives two. -/
def upperImage (c : Char) : Text :=
  if c.toNat < 128 then [c.toUpper] else caseImage upperRuns upperExpansions c

/-- Lower case as a single character. -/
def simpleLower (c : Char) : Char := (lowerImage c).headD c

/-! ## Texts -/

/-- Does the nearest character that is not case-ignorable have a case? -/
def startsCased (t : Text) : Bool := (t.dropWhile isCaseIgnorable).head?.any isCased

/-- Lower-casing after a context; `casedBefore` says whether the nearest character before the
text that is not case-ignorable has a case. -/
def lowerFrom (casedBefore : Bool) : Text → Text
  | [] => []
  | c :: rest =>
      (if c == 'Σ' then [if casedBefore && !startsCased rest then 'ς' else 'σ']
       else lowerImage c) ++
        lowerFrom (if isCaseIgnorable c then casedBefore else isCased c) rest

/-- Full lower-casing. -/
def lower (t : Text) : Text := lowerFrom false t

/-- The first character in upper case, the rest as it stands. -/
def capitalize : Text → Text
  | [] => []
  | c :: rest => upperImage c ++ rest

/-! ## Comparison without case -/

/-- The lower-case characters that count as `c`. -/
def caseClass (c : Char) : List Nat :=
  let n := (simpleLower c).toNat
  n :: (caseSiblings.lookup n).getD []

def sameIgnoringCase (a b : Char) : Bool :=
  a == b || (caseClass a).contains (simpleLower b).toNat

/-- All characters that are the same as `c` when case is ignored, below `U+0080` and among the
characters the case table moves. -/
def caseVariants (c : Char) : List Nat :=
  let wanted := caseClass c
  let moved := lowerRuns.flatMap fun r => wanted.filterMap r.source?
  c.toNat :: wanted ++ moved ++ (if wanted.contains 105 then [304] else [])

end CodeAtlas.Text
