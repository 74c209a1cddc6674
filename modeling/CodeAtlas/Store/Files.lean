/-
# Store.Files -- saving and loading a corpus

A store keeps two files in its directory: the records of the groups by file type, and the index
derived from the same corpus.  `save` writes both, the groups first; `load` reads the groups and
`loadIndex` the index.  A file that is missing, cannot be opened, or is not JSON with a table at the
top gives nothing; a file type whose value is no list, or holds no usable record, is left out.

`save` and `clear` keep what they have done when they fail halfway.
-/
import CodeAtlas.FileTree.Change
import CodeAtlas.Json.Reader
import CodeAtlas.Json.Writer
import CodeAtlas.Store.Index
import CodeAtlas.Store.Record

namespace CodeAtlas.Store

set_option autoImplicit false

open FileTree (Script)

/-! ## Saving -/

/-- The text of the groups file. -/
def groupsText (s : Store) (c : Corpus) : Text :=
  Json.write (.table ((s.records c).map fun e => (e.1, .list (e.2.map Record.toValue))))

/-- The text of the index file. -/
def indexText (i : Hierarchy.Index) : Text := Json.write (SavedIndex.ofIndex i).toValue

/-- Write both files. -/
def save (s : Store) (c : Corpus) : Script Hierarchy.Index := do
  let index := Hierarchy.Index.ofCorpus c
  Script.change (·.makeDirectories (s.here ++ s.directory))
  Script.change (·.writeText (s.here ++ s.groupsPath) (s.groupsText c))
  Script.change (·.writeText (s.here ++ s.indexPath) (indexText index))
  return index

/-! ## Loading -/

/-- The table at the top of a JSON file, if the file is there and in order. -/
def readTable (t : FileTree) (p : Path) : Except Fault (Option (Entries Value)) :=
  match t.readText p with
  | .error .undecodable => .error .undecodable
  | .error _ => .ok none
  | .ok text =>
      match Json.read text with
      | .ok v => .ok v.table?
      | .error .malformed => .ok none
      | .error .tooDeep => .error .tooDeep
      | .error (.tooManyDigits n) => .error (.integerText [] (.tooManyDigits n))

/-- The groups under one file type, if there are any. -/
def loadType (s : Store) (member : Text × Value) : Except Fault (Option (Text × List Group)) :=
  match member.2.list? with
  | none => .ok none
  | some vs => (s.readRecords vs).map fun groups =>
      if groups.isEmpty then none else some (member.1, groups)

/-- The saved corpus, if there is one. -/
def load (s : Store) (t : FileTree) : Except Fault (Option Corpus) := do
  match ← readTable t (s.here ++ s.groupsPath) with
  | none => return none
  | some members => return some ((← members.mapM s.loadType).filterMap id)

/-- The saved index, if there is one. -/
def loadIndex (s : Store) (t : FileTree) : Except Fault (Option SavedIndex) := do
  match ← readTable t (s.here ++ s.indexPath) with
  | none => return none
  | some members => return some (← readIndex members)

/-! ## Presence and removal -/

/-- Have groups been saved? -/
def isSaved (s : Store) (t : FileTree) : Bool := t.holds (s.here ++ s.groupsPath)

/-- Remove one file; says whether it was there. -/
def clearFile (p : Path) : Script Bool := do
  if (← get).holds p then
    Script.change (·.remove p)
    return true
  else return false

/-- Remove both files; says whether one of them was there. -/
def clear (s : Store) : Script Bool := do
  let groups ← clearFile (s.here ++ s.groupsPath)
  let index ← clearFile (s.here ++ s.indexPath)
  return groups || index

end CodeAtlas.Store
