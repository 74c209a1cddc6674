/-
# Hierarchy.Index -- the paths of a corpus and what stands on them

The index has an entry for every path on which a group stands and for every path above one, in the
order in which they are first met.  It is made in two steps.  The first (`gather`) goes through the
groups: the file type of a group is noted on every path above it and on its own, and the group is
counted on its own path.  The second (`finish`) adds to every entry the paths one level below it and
puts them and the file types in ascending order.
-/
import CodeAtlas.Corpus

namespace CodeAtlas.Hierarchy

set_option autoImplicit false

/-- What is known about one path. -/
structure IndexEntry where
  level : Nat
  parent : Option Text
  children : List Text := []
  groupCount : Nat := 0
  fileTypes : List Text := []
  deriving DecidableEq, Repr

abbrev Index := Entries IndexEntry

namespace Index

/-! ## Gathering -/

/-- The entry of a path that has not been met before. -/
def fresh (path : Text) : IndexEntry :=
  { level := (segments path).length, parent := parent? path }

/-- A file type noted on a path. -/
def note (fileType : Text) (i : Index) (path : Text) : Index :=
  Entries.alter i path fun old =>
    let e := old.getD (fresh path)
    { e with fileTypes := e.fileTypes ++ [fileType] }

/-- A group counted on a path. -/
def countOn (i : Index) (path : Text) : Index :=
  Entries.alter i path fun old =>
    let e := old.getD (fresh path)
    { e with groupCount := e.groupCount + 1 }

/-- A group with everything above it; one without segments stands nowhere. -/
def add (fileType : Text) (i : Index) (g : Group) : Index :=
  if (segments g.functionality).isEmpty then i
  else countOn ((ancestors g.functionality).foldl (note fileType) i) (normalize g.functionality)

def gather (c : Corpus) : Index := c.foldl (fun i e => e.2.foldl (add e.1) i) []

/-! ## Finishing -/

/-- The paths one level below a path. -/
def childrenOf (i : Index) (path : Text) : List Text :=
  Text.sort ((i.filter fun e => e.2.parent == some path).map Prod.fst)

def finish (i : Index) : Index :=
  i.map fun e =>
    (e.1, { e.2 with
      children := childrenOf i e.1
      fileTypes := Text.sort (Text.distinct e.2.fileTypes) })

def ofCorpus (c : Corpus) : Index := finish (gather c)

end Index

end CodeAtlas.Hierarchy
