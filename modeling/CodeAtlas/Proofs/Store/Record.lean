/-
# Proofs.Store.Record -- a group that has been saved is read back

A store can keep a group (`Keepable`) when it has a name, an absolute path, and lines that can be
written and read.  What it gives back (`kept`) has the same name and description; the path in normal
form, with the slashes of the workspace in front; the distinct lines in ascending order; and the
place that belongs to the name if it has a delimiter.

Any group with a name is read back with its path and lines as they were written (`restored`), unless
nothing is left of the lines (`readRecord_recordOf`).  The parts have their own laws, the path
`toAbsolute_toRelative` and the lines `LineRanges.decode_encode`; for a group that can be kept they
say that it is what the store keeps (`restored_eq_kept`).
-/
import CodeAtlas.Proofs.LineRanges
import CodeAtlas.Proofs.Path
import CodeAtlas.Store.Record

namespace CodeAtlas.Store

set_option autoImplicit false

/-- **A saved path is found again**: its normal form, under the slashes of the workspace. -/
theorem toAbsolute_toRelative {s : Store} (absolute : s.workspace.isAbsolute = true)
    {filePath : Text} (absolute' : (Path.ofText filePath).isAbsolute = true) :
    s.toAbsolute (s.toRelative filePath) =
      Path.toText ⟨s.workspace.root, (Path.ofText filePath).normalize.parts⟩ := by
  have way : Path.WellFormed (Path.relativeTo s.here s.workspace (Path.ofText filePath)) :=
    Path.wellFormed_relativeTo (Path.wellFormed_ofText filePath) absolute'
  rw [toRelative]
  simp only [absolute', if_true]
  rw [toAbsolute, Path.ofText_toText way, Path.normalize_append_relativeTo absolute absolute']

/-- A group that a store can keep. -/
structure Keepable (g : Group) : Prop where
  name : g.functionality ≠ []
  path : (Path.ofText g.filePath).isAbsolute = true
  lines : g.lines ≠ []
  readable : ∀ n ∈ g.lines, LineRanges.Readable n
  room : g.lines.length < LineRanges.roomLimit

/-- The place of a group that has been loaded; only names with a delimiter get one. -/
def loadedPlace (name : Text) : Hierarchy.Place :=
  if name.contains Hierarchy.delimiter then .ofName name else .none

/-- **The group that a store gives back.** -/
def kept (s : Store) (g : Group) : Group :=
  { functionality := g.functionality
    description := g.description
    filePath := Path.toText ⟨s.workspace.root, (Path.ofText g.filePath).normalize.parts⟩
    lines := LineRanges.sorted g.lines
    place := loadedPlace g.functionality }

theorem Keepable.filePath_ne_nil {g : Group} (keepable : Keepable g) : g.filePath ≠ [] := by
  intro empty
  have path := keepable.path
  rw [empty] at path
  revert path
  decide

/-- The record that is written for a group. -/
def recordOf (s : Store) (g : Group) : Record :=
  { functionality := g.functionality
    description := g.description
    filePath := s.toRelative g.filePath
    lines := LineRanges.encode g.lines }

theorem record?_of_keepable (s : Store) {g : Group} (keepable : Keepable g) :
    s.record? g = some (s.recordOf g) := by
  rw [record?, if_neg (by simp [keepable.name, keepable.filePath_ne_nil])]
  rfl

theorem toRelative_ne_nil (s : Store) (filePath : Text) : s.toRelative filePath ≠ [] :=
  Path.toText_ne_nil _

theorem solid?_text {t : Text} (some_ : t ≠ []) : (Value.text t).solid? = some (.text t) := by
  rw [Value.solid?, Value.isHollow, if_neg (by simpa using some_)]

/-- The members of the record of a group. -/
def membersOfRecord (r : Record) : Entries Value :=
  [("functionality", .text r.functionality), ("description", .text r.description),
    ("filePath", .text r.filePath), ("lineNumbers", .text r.lines)]

/-- A hollow description is no description, and reads as the empty one it was. -/
theorem description_membersOfRecord (r : Record) :
    (solidMember? (membersOfRecord r) "description").elim [] Value.shown = r.description := by
  change ((Value.text r.description).solid?).elim [] Value.shown = r.description
  by_cases empty : r.description = []
  · rw [empty]
    rfl
  · rw [solid?_text empty]
    rfl

/-- The group in the record of a group, if one is found there. -/
def restored (s : Store) (g : Group) : Group :=
  s.group g.functionality g.description (s.toRelative g.filePath)
    (LineRanges.decode (LineRanges.encode g.lines))

theorem functionality_restored (s : Store) (g : Group) :
    (s.restored g).functionality = g.functionality := by
  rw [restored, group]
  split <;> rfl

/-- **What is written for a group with a name is read**, unless its lines have come to nothing. -/
theorem readRecord_recordOf (s : Store) {g : Group} (name : g.functionality ≠ [])
    (listed : LineRanges.read (LineRanges.encode g.lines) =
      .ok (LineRanges.decode (LineRanges.encode g.lines))) :
    s.readRecord (s.recordOf g).toValue =
      .ok (if (LineRanges.decode (LineRanges.encode g.lines)).isEmpty then none
        else some (s.restored g)) := by
  have functionality : solidMember? (membersOfRecord (s.recordOf g)) "functionality" =
      some (.text g.functionality) := solid?_text name
  have filePath : solidMember? (membersOfRecord (s.recordOf g)) "filePath" =
      some (.text (s.toRelative g.filePath)) := solid?_text (s.toRelative_ne_nil g.filePath)
  have lines : LineRanges.ofValue
      ((Entries.get? (membersOfRecord (s.recordOf g)) "lineNumbers").getD .null) =
      .ok (LineRanges.decode (LineRanges.encode g.lines)) := listed
  have table : (s.recordOf g).toValue.table? = some (membersOfRecord (s.recordOf g)) := rfl
  rw [readRecord, table]
  simp only [functionality, filePath, lines, Run.ok_bind, description_membersOfRecord]
  split <;> rfl

/-- **What is read for a group that can be kept is the group that is kept.** -/
theorem restored_eq_kept {s : Store} (absolute : s.workspace.isAbsolute = true) {g : Group}
    (keepable : Keepable g) : s.restored g = s.kept g := by
  rw [restored, group, toAbsolute_toRelative absolute keepable.path,
    LineRanges.decode_encode keepable.readable, LineRanges.ascending_eq_sorted, kept, loadedPlace]
  split
  · rfl
  · rfl

end CodeAtlas.Store
