/-
# Terminal.Tree -- trees with guides

A tree is drawn as its label and, below it, its branches from top to bottom.  A guide leads from
branch to branch and ends at the last one.
-/
import CodeAtlas.Terminal.Line

namespace CodeAtlas.Terminal

set_option autoImplicit false

structure Tree where
  label : Text
  branches : List Tree := []

namespace Tree

/-- Lines with something in front of the first and something else in front of the others. -/
def hang (first further : Text) : List Text → List Text
  | [] => []
  | line :: rest => (first ++ line) :: rest.map (further ++ ·)

mutual

def lines : Tree → List Text
  | ⟨label, branches⟩ => linesOf label ++ branchLines branches

/-- The lines of all branches below one label. -/
def branchLines : List Tree → List Text
  | [] => []
  | t :: rest =>
      (if rest.isEmpty then hang "└── " "    " t.lines else hang "├── " "│   " t.lines) ++
        branchLines rest

end

end Tree

end CodeAtlas.Terminal
