/-
# Hierarchy.Path -- names as paths

A name such as `Auth > Login > Validation` is a path: its *segments* are the pieces between the
delimiters `>`, trimmed, the empty ones dropped.  The segments determine everything else
(`Place.ofSegments`): the level is their number, the leaf the last of them, the parent the rest
joined by ` > `.  Something that is not a text has no segments.

`normalize` writes the segments back with ` > ` between them; `ancestors` lists the paths of all
non-empty initial parts, the path itself last.  A path is a descendant of another when its
segments properly extend the other's (`isDescendant`), and upper and lower case are told apart.

A name is *valid* when no piece between delimiters is blank and every piece, trimmed, is made of
letters and digits of the basic alphabet, white space, `-` and `_`.
-/
import CodeAtlas.Value.Basic

namespace CodeAtlas.Hierarchy

set_option autoImplicit false

def delimiter : Char := '>'

def separator : Text := " > "

/-! ## Segments -/

/-- The trimmed, non-empty pieces between delimiters. -/
def segments (name : Text) : List Text :=
  ((Text.splitOn delimiter name).map Text.trim).filter (!·.isEmpty)

/-- One path from its segments. -/
def format (segments : List Text) : Text := Text.join separator segments

/-- The canonical spelling of a path. -/
def normalize (name : Text) : Text := format (segments name)

/-- Where a name stands in the hierarchy. -/
structure Place where
  segments : List Text
  level : Nat
  parent : Text
  leaf : Text
  deriving DecidableEq, Repr

namespace Place

/-- No place at all: the name has no segments, or nobody has looked. -/
def none : Place := ⟨[], 0, [], []⟩

instance : Inhabited Place := ⟨none⟩

def ofSegments (segments : List Text) : Place :=
  { segments
    level := segments.length
    parent := format segments.dropLast
    leaf := segments.getLastD [] }

def ofName (name : Text) : Place := ofSegments (Hierarchy.segments name)

/-- The place of any value: only a text has one. -/
def ofValue (v : Value) : Place := ofName (v.text?.getD [])

end Place

/-! ## Ancestors and descendants -/

/-- The paths of all non-empty initial parts, shortest first. -/
def ancestors (name : Text) : List Text :=
  (List.range (segments name).length).map fun i => format ((segments name).take (i + 1))

/-- The path above, if there is one. -/
def parent? (name : Text) : Option Text :=
  let above := (Place.ofName name).parent
  if above.isEmpty then Option.none else some above

/-- Is `above` a proper initial part of `below`? -/
def properlyExtends (below above : List Text) : Bool :=
  if below.length ≤ above.length then false else below.take above.length == above

/-- Do the segments of `name` properly extend those of `ancestor`?  The empty text is below
nothing and above nothing. -/
def isDescendant (name ancestor : Text) : Bool :=
  if name.isEmpty || ancestor.isEmpty then false
  else properlyExtends (segments name) (segments ancestor)

/-- The same for any values: hollow ones are below and above nothing, and a value that is not a
text has no segments. -/
def isDescendantValue (v ancestor : Value) : Bool :=
  if v.isHollow || ancestor.isHollow then false
  else properlyExtends (Place.ofValue v).segments (Place.ofValue ancestor).segments

/-! ## Validity -/

def isSegmentChar (c : Char) : Bool :=
  c.isAlphanum || Text.isBlankChar c || c == '-' || c == '_'

def isValid (name : Text) : Bool :=
  let pieces := (Text.splitOn delimiter name).map Text.trim
  !name.isEmpty && pieces.all (!·.isEmpty) && pieces.all (·.all isSegmentChar)

def isValidValue (v : Value) : Bool := isValid (v.text?.getD [])

end CodeAtlas.Hierarchy
