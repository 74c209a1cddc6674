/-
# Store.Refresh -- bringing the saved groups up to date

`refresh` scans the whole workspace and saves what it finds.  `refreshFile` scans one file and puts
its groups in the stead of those that were saved for it; where nothing has been saved yet, the
groups of that file are all there is.
-/
import CodeAtlas.Store.Files
import CodeAtlas.Workspace.Scan

namespace CodeAtlas.Store

set_option autoImplicit false

open FileTree (Script)

/-- Scan the workspace and save the groups. -/
def refresh (s : Store) (o : Workspace.Options) : Script (Corpus × Hierarchy.Index) := do
  let corpus ← Script.ask fun t => Workspace.scan t s.workspace o
  return (corpus, ← s.save corpus)

/-- Scan one file and save its groups along with those of the other files. -/
def refreshFile (s : Store) (file : Path) : Script (Corpus × Hierarchy.Index) := do
  let groups ← Script.ask fun t => Workspace.scanFile t file file.toText none
  let saved ← Script.ask s.load
  let corpus :=
    (saved.getD []).replaceFile file.toText (Language.fileType file.toText) groups
  return (corpus, ← s.save corpus)

end CodeAtlas.Store
