/-
# Corpus -- the groups of a workspace

A corpus holds groups by file type, in the order in which the types were first met.  It can be
asked for the groups of one functionality, whatever the case of its name, and turned round into
the groups of each functionality.

`replaceFile` is what a new scan of one file does: the groups found in that file before go, from
whatever type they are under, the new ones come at the end of their type, and a type without
groups is no longer there.
-/
import CodeAtlas.Group
import CodeAtlas.Text.Case

namespace CodeAtlas

set_option autoImplicit false

/-- Groups by file type. -/
abbrev Corpus := Entries (List Group)

namespace Corpus

/-- All groups, type by type. -/
def groups (c : Corpus) : List Group := c.flatMap Prod.snd

/-- The groups of each functionality under its exact name; groups without a name are left out. -/
def byFunctionality (c : Corpus) : Entries (List Group) :=
  (c.groups.filter (!·.functionality.isEmpty)).foldl (fun e g => Entries.push e g.functionality g)
    []

/-- The groups that satisfy a condition; types without such groups are left out. -/
def restrict (c : Corpus) (p : Group → Bool) : Corpus :=
  (c.map fun e => (e.1, e.2.filter p)).filter (!·.2.isEmpty)

/-- The groups of a functionality, in any case. -/
def named (c : Corpus) (functionality : Text) : Corpus :=
  c.restrict fun g => Text.lower g.functionality == Text.lower functionality

/-- The corpus after a file has been scanned anew. -/
def replaceFile (c : Corpus) (filePath fileType : Text) (groups : List Group) : Corpus :=
  let others := c.restrict (·.filePath != filePath)
  if groups.isEmpty then others
  else Entries.alter others fileType fun old => old.getD [] ++ groups

end Corpus

end CodeAtlas
