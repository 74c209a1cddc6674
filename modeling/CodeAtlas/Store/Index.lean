/-
# Store.Index -- the hierarchy index as it is saved

The index is saved beside the groups.  Reading takes what it finds: an entry needs a level and a
count that stand for whole numbers, 0 when they are missing, and is dropped when they do not; its
parent may be anything, and its children and file types any sequences.
-/
import CodeAtlas.Hierarchy.Index
import CodeAtlas.Value.Number

namespace CodeAtlas.Store

set_option autoImplicit false

/-- An entry as it is found in a file. -/
structure SavedEntry where
  level : Int
  parent : Value
  children : List Value
  groupCount : Int
  fileTypes : List Value

/-- An index as it is found in a file. -/
structure SavedIndex where
  version : Text
  entries : Entries SavedEntry := []

/-- The version of the indexes that are written. -/
def indexVersion : Text := "1.0"

/-! ## Writing -/

namespace SavedEntry

/-- An entry of an index in its saved form. -/
def ofEntry (e : Hierarchy.IndexEntry) : SavedEntry :=
  { level := e.level
    parent := (e.parent.map Value.text).getD .null
    children := e.children.map .text
    groupCount := e.groupCount
    fileTypes := e.fileTypes.map .text }

def toValue (e : SavedEntry) : Value :=
  .table
    [("level", .int e.level), ("parent", e.parent), ("children", .list e.children),
     ("groupCount", .int e.groupCount), ("fileTypes", .list e.fileTypes)]

end SavedEntry

namespace SavedIndex

def ofIndex (i : Hierarchy.Index) : SavedIndex :=
  { version := indexVersion, entries := i.map fun e => (e.1, .ofEntry e.2) }

def toValue (i : SavedIndex) : Value :=
  .table
    [("version", .text i.version), ("totalFunctionalities", .int i.entries.length),
     ("functionalities", .table (i.entries.map fun e => (e.1, e.2.toValue)))]

end SavedIndex

/-! ## Reading -/

/-- The members of a sequence; a missing or hollow value has none. -/
def membersOf (v : Option Value) : Except Fault (List Value) :=
  match v.bind Value.solid? with
  | none => .ok []
  | some v =>
      match v.sequence? with
      | some vs => .ok vs
      | none => .error .wrongKind

/-- A whole number, 0 when there is none; `none` when the value stands for none.  A number that
is too large is a fault. -/
def wholeNumber (v : Option Value) : Except Fault (Option Int) :=
  match (v.getD (.int 0)).toInteger with
  | .ok n => .ok (some n)
  | .error .tooLarge => .error .tooLarge
  | .error _ => .ok none

/-- The entry in a value, if there is one. -/
def readEntry (v : Value) : Except Fault (Option SavedEntry) :=
  match v.table? with
  | none => .ok none
  | some e => do
      match ← wholeNumber (e.get? "level") with
      | none => return none
      | some level =>
          match ← wholeNumber (e.get? "groupCount") with
          | none => return none
          | some groupCount =>
              return some
                { level
                  parent := (e.get? "parent").getD .null
                  children := ← membersOf (e.get? "children")
                  groupCount
                  fileTypes := ← membersOf (e.get? "fileTypes") }

/-- The entries in the members of a table. -/
def readEntries (members : Entries Value) : Except Fault (Entries SavedEntry) :=
  (members.mapM fun m => (readEntry m.2).map fun e => (m.1, e)).map fun es =>
    es.filterMap fun e => e.2.map (e.1, ·)

/-- The index in the members of a file. -/
def readIndex (e : Entries Value) : Except Fault SavedIndex := do
  let members := ((e.get? "functionalities").bind Value.table?).getD []
  return { version := ((e.get? "version").map Value.shown).getD indexVersion
           entries := ← readEntries members }

end CodeAtlas.Store
