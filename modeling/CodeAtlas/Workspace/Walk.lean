/-
# Workspace.Walk -- the source files of a workspace

The walk lists the files below a root, directory by directory, the names of each in ascending
order.  It does not enter a directory that is to be skipped by its name, whose name begins with a
dot, or that is ignored, and leaves out files that are ignored.  A link is passed over unless its
real place is at or below the root; links are followed otherwise, so a file may be listed under
several paths.

The walk goes down one directory at a time, and no path that leads anywhere has more links than
can be followed, or more directories between two links than the tree has; `depthLimit` is beyond
that.  How many calls within calls a machine has room for is left out.

Which entries are passed over is a parameter of the walk: `leadsOut` asks where a link leads, and
`Workspace.Limits` also whether its path can be looked up.
-/
import CodeAtlas.FileTree.Basic
import CodeAtlas.Workspace.Ignore

namespace CodeAtlas.Workspace

set_option autoImplicit false

/-- Directories that are never entered. -/
def skippedDirectories : List Text :=
  ["node_modules", ".git", ".groupcode", "dist", "build", ".next", "out", "coverage", "venv",
   ".venv", "env", ".env", "bin", "obj", ".vs", ".idea", ".vscode", "tmp", "temp", ".cache",
   "__pycache__", ".tox", ".pytest_cache", ".mypy_cache"]

/-- What a walk leaves out. -/
structure Filter where
  skipped : List Text
  rules : List Rule

namespace Filter

/-- Is a directory with this name left out? -/
def skips (f : Filter) (name : Text) : Bool :=
  f.skipped.contains name || name.head? == some '.'

end Filter

/-- No path that leads anywhere is deeper. -/
def depthLimit (t : FileTree) : Nat := (FileTree.maxLinks + 1) * (t.nodes.length + 1)

/-- Does a link lead out of the root?  Its real place decides. -/
def leadsOut (t : FileTree) (root item : Path) : Except Fault Bool :=
  if t.isLink item then (t.realPath item).map (!root.isWithin ·) else .ok false

/-- The files below the directory at `current`, at most `depth` directories down. -/
def filesFrom (passes : Path → Except Fault Bool) (t : FileTree) (f : Filter) (root : Path) :
    Nat → Path → Except Fault (List Path)
  | 0, _ => .ok []
  | depth + 1, current =>
      ((t.names current).mapM fun name => do
        let item := current.child name
        let path := (root.below item).toText
        if ← passes item then return []
        else if t.isDirectory item then
          if f.skips name || isIgnored f.rules (path ++ ['/']) then return []
          else filesFrom passes t f root depth item
        else if t.isFile item && !isIgnored f.rules path then return [item]
        else return []).map List.flatten

/-- The files of a workspace. -/
def files (t : FileTree) (f : Filter) (root : Path) : Except Fault (List Path) :=
  filesFrom (leadsOut t root) t f root (depthLimit t) root

end CodeAtlas.Workspace
