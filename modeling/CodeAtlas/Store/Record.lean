/-
# Store.Record -- groups as they are saved

A store belongs to a workspace.  In its files a group is a record of four texts: functionality,
description, path and lines, the path as seen from the workspace and the lines in compact form.

Reading is more lenient than writing.  A record may hold anything: it has to be a table with a
functionality, a path and lines, none of them hollow; what is no text is shown as one, and lines
may also be a list.  A record that lacks one of the three is dropped.  The place in the hierarchy is
not saved; it is computed again for names that have a delimiter.
-/
import CodeAtlas.Corpus
import CodeAtlas.LineRanges
import CodeAtlas.Path

namespace CodeAtlas

set_option autoImplicit false

/-- The directory relative paths are seen from, and the workspace. -/
structure Store where
  here : Path
  workspace : Path
  deriving DecidableEq, Repr

namespace Store

/-! ## Opening -/

/-- The store of the workspace that a value names, which has to be a text that is not blank. -/
def ofValue (here home : Path) (users : Entries Path) (v : Value) : Except Fault Store :=
  match v.text? with
  | none => .error .invalidWorkspace
  | some t =>
      if Text.isBlank t then .error .invalidWorkspace
      else
        match Path.expandHome? home users (Path.ofText t) with
        | some workspace => .ok { here, workspace }
        | none => .error .unknownHome

/-- The directory of the store. -/
def directory (s : Store) : Path := s.workspace.child ".groupcode"

def groupsPath (s : Store) : Path := s.directory.child "codegroups.json"

def indexPath (s : Store) : Path := s.directory.child "functionalities.json"

/-! ## Paths -/

/-- A path as it is saved: an absolute one as seen from the workspace. -/
def toRelative (s : Store) (filePath : Text) : Text :=
  let p := Path.ofText filePath
  (if p.isAbsolute then Path.relativeTo s.here s.workspace p else p).toText

/-- A saved path from the root, if the workspace is given so. -/
def toAbsolute (s : Store) (filePath : Text) : Text :=
  (s.workspace ++ Path.ofText filePath).normalize.toText

/-! ## Records -/

/-- A saved group. -/
structure Record where
  functionality : Text
  description : Text
  filePath : Text
  lines : Text
  deriving DecidableEq, Repr

def Record.toValue (r : Record) : Value :=
  .table
    [("functionality", .text r.functionality), ("description", .text r.description),
     ("filePath", .text r.filePath), ("lineNumbers", .text r.lines)]

/-- The record of a group, if it has a name and a path. -/
def record? (s : Store) (g : Group) : Option Record :=
  if g.functionality.isEmpty || g.filePath.isEmpty then none
  else some
    { functionality := g.functionality
      description := g.description
      filePath := s.toRelative g.filePath
      lines := LineRanges.encode g.lines }

/-- The records of a corpus; the type without a name is left out. -/
def records (s : Store) (c : Corpus) : Entries (List Record) :=
  (c.filter (!·.1.isEmpty)).map fun e => (e.1, e.2.filterMap s.record?)

/-! ## Reading -/

/-- The member of a table, if it is there and not hollow. -/
def solidMember? (e : Entries Value) (key : Text) : Option Value :=
  (e.get? key).bind Value.solid?

/-- The group with these parts, its place computed if its name has a delimiter. -/
def group (s : Store) (functionality description filePath : Text) (lines : List Int) : Group :=
  let g : Group := { functionality, description, filePath := s.toAbsolute filePath, lines }
  if functionality.contains Hierarchy.delimiter then g.placed else g

/-- The group in a saved record, if there is one. -/
def readRecord (s : Store) (v : Value) : Except Fault (Option Group) :=
  match v.table? with
  | none => .ok none
  | some e =>
      match solidMember? e "functionality", solidMember? e "filePath" with
      | some functionality, some filePath => do
          let lines ← LineRanges.ofValue ((e.get? "lineNumbers").getD .null)
          if lines.isEmpty then return none
          else
            let description := (solidMember? e "description").elim [] Value.shown
            return some (s.group functionality.shown description filePath.shown lines)
      | _, _ => .ok none

/-- The groups in a list of records. -/
def readRecords (s : Store) (vs : List Value) : Except Fault (List Group) :=
  (vs.mapM s.readRecord).map fun groups => groups.filterMap id

end Store

end CodeAtlas
