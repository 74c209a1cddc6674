/-
# Workspace.Limits -- scans where paths may be too long

Every entry of a directory is looked up before the walk goes on from it: the entry itself, and what
it leads to unless it is a link out of the workspace.  An entry whose path is too long stops the walk,
and so does an ignore file; a root that is too long has no entries, because a directory that cannot
be listed is passed over.  Files are looked up by the walk, so they can be read.
-/
import CodeAtlas.FileTree.Limits
import CodeAtlas.Workspace.Scan

namespace CodeAtlas.Workspace

set_option autoImplicit false

open FileTree (Limits)

/-- Does a link lead out of the root?  Its real path within the limits decides. -/
def leadsOutWithin (t : FileTree) (l : Limits) (root item : Path) : Except Fault Bool :=
  if t.isLink item then (t.realPathWithin l item).map (!root.isWithin ·) else .ok false

/-- Is an entry passed over?  Its path, and what it leads to, may be too long. -/
def passesWithin (t : FileTree) (l : Limits) (root item : Path) : Except Fault Bool := do
  t.lookUp l false item
  let out ← leadsOutWithin t l root item
  if out then return true
  t.lookUp l true item
  return false

/-- The files of a workspace. -/
def filesWithin (t : FileTree) (l : Limits) (f : Filter) (root : Path) :
    Except Fault (List Path) :=
  if t.canLookUp l true root then
    filesFrom (passesWithin t l root) t f root (depthLimit t) root
  else .ok []

/-- What is left out, if the ignore file can be looked up. -/
def filterWithin (t : FileTree) (l : Limits) (root : Path) (o : Options) :
    Except Fault Filter := do
  if o.respectIgnoreFile then t.lookUp l true (root.child ignoreFileName)
  filter t root o

/-- The corpus of the workspace at an absolute path. -/
def scanWithin (t : FileTree) (l : Limits) (path : Path) (o : Options) : Except Fault Corpus := do
  let root ← t.realPathWithin l path
  corpusOf t (← filesWithin t l (← filterWithin t l root o) root)

end CodeAtlas.Workspace
