/-
# Proofs.Settings.Atomic -- when a change of the settings is all or nothing

A change should be made as a whole, with everything else in the file kept, or leave the file as it
is (`Atomic`).  Whatever stops it before the file is opened leaves the file as it is
(`atomic_of_error`): text that cannot be decoded, TOML that fails in an unforeseen way, a section
that is no table.  What is written is the table that was read but for the change, so the change is
made as a whole if that table survives being written and read again (`spares_iff`).

Two cases are left.  Unreadable text counts as no settings, so the change answers `true` and
everything else is lost.  And a table that cannot be written is found out about only after the file
has been emptied.  In both the change is not atomic, unless by chance the file held already what it
holds afterwards (`atomic_iff`).

What is read again may have its keys in another order, so tables are compared by `Value.Same`.
-/
import CodeAtlas.Proofs.Settings.History

namespace CodeAtlas.Settings

set_option autoImplicit false

open Value (Same)

variable {c : Change} {all all' before after : Entries Value} {section_ key : Text} {file : Path}
  {t t' : FileTree} {old : Bytes}

/-! ## All or nothing -/

/-- The table that a file spells. -/
def tableIn (file : Path) (t : FileTree) : Except Fault (Entries Value) :=
  (t.readText file).bind Toml.read

/-- **The settings after a change are those before it, but for what the change is about.** -/
def Change.Spares (before after : Entries Value) : Change → Prop
  | save section_ key v =>
      (∀ other, other ≠ section_ → Option.Rel Same (after.get? other) (before.get? other)) ∧
      (∀ other, other ≠ key → Option.Rel Same ((settingsIn after section_).get? other)
        ((settingsIn before section_).get? other)) ∧
      Option.Rel Same ((settingsIn after section_).get? key) (some v)
  | reset section_ =>
      (∀ other, other ≠ section_ → Option.Rel Same (after.get? other) (before.get? other)) ∧
      after.get? section_ = none

/-- **The change is all or nothing**: it answers `true` and spares everything else in the file, or
the file is as before. -/
def Atomic (file : Path) (c : Change) (t : FileTree) : Prop :=
  let done := (c.script file).perform t
  (done.1 = .ok true ∧ ∃ before after, tableIn file t = .ok before ∧
      tableIn file done.2 = .ok after ∧ c.Spares before after) ∨
    done.2.read file = t.read file

/-- The table can be written, and what is read again is the same. -/
def Survives (all : Entries Value) : Prop :=
  ∃ text again, Toml.write all = .ok text ∧ Toml.read (Text.withLineFeeds text) = .ok again ∧
    Same (.table again) (.table all)

/-! ## Tables that are read, changed and written -/

/-- A section is the same as a table with a setting exactly if the settings in it are. -/
theorem rel_table_iff {settings : Entries Value} {v : Value}
    (some_ : settings.get? key = some v) :
    Option.Rel Same (all.get? section_) (some (.table settings)) ↔
      Same (.table (settingsIn all section_)) (.table settings) := by
  constructor
  · intro rel
    obtain ⟨w, found, same⟩ := Same.exists_of_rel_some rel
    cases same with
    | refl =>
        rw [settingsIn_of_get? found]
        exact .refl _
    | table members =>
        rw [settingsIn_of_get? found]
        exact .table members
  · intro same
    have there := Same.table_iff.mp same key
    rw [some_] at there
    obtain ⟨w, stored, -⟩ := Same.exists_of_rel_some there
    rw [exists_table stored]
    exact .some same

/-- **A table spares what it should exactly if it is the changed table.** -/
theorem spares_iff (applied : c.apply before = .ok all) :
    c.Spares before after ↔ Same (.table after) (.table all) := by
  cases c with
  | save section_ key v =>
      obtain ⟨-, rfl⟩ := Change.save_apply_eq_ok_iff.mp applied
      have stored : ((settingsIn before section_).set key v).get? key = some v := by
        rw [Entries.get?_set, if_pos rfl]
      rw [Change.Spares, Same.table_set_iff, rel_table_iff stored, Same.table_set_iff]
  | reset section_ =>
      cases applied
      rw [Change.Spares, Same.table_erase_iff]

/-! ## Every text -/

/-- Unreadable text counts as no settings; any other fault of the text is one of the reading. -/
theorem readAll_eq (read : t.read file = .ok old) : readAll file t =
    match tableIn file t with
    | .error .unreadable => .ok []
    | .error .noSuchMember => .error .wrongKind
    | table => table := by
  rw [readAll, tableIn, FileTree.readText, read, Run.ok_bind]
  cases Text.decode? old with
  | none => rfl
  | some text => rfl

/-- What is read is spelled by the text, or the text is unreadable. -/
theorem tableIn_of_readAll (read : t.read file = .ok old) (read' : readAll file t = .ok before) :
    tableIn file t = .ok before ∨ tableIn file t = .error .unreadable := by
  rw [readAll_eq read] at read'
  split at read'
  · rename_i unreadable
    exact .inr unreadable
  · cases read'
  · exact .inl read'

/-- A change that cannot be read or made leaves the tree as it is. -/
theorem atomic_of_error {f : Fault} (known : c.isKnown = true)
    (stopped : (readAll file t).bind c.apply = .error f) : Atomic file c t := by
  refine .inr ?_
  rw [perform_script known, stopped]

/-- A change that comes to writing is all or nothing if the text is readable and the new table
survives, and also if the file holds the same bytes again. -/
theorem atomic_iff_of_apply (known : c.isKnown = true) (read : t.read file = .ok old)
    (changed : (readAll file t).bind c.apply = .ok all) :
    Atomic file c t ↔
      tableIn file t ≠ .error .unreadable ∧ Survives all ∨ bytesOf all = old := by
  obtain ⟨before, read', applied⟩ : ∃ before, readAll file t = .ok before ∧
      c.apply before = .ok all := Run.bind_eq_ok_iff.mp changed
  obtain ⟨t', done, content⟩ := exists_writeAll (canFill_of_read read) all
  rw [← perform_script_of_apply known read' applied] at done
  have spelled : ∀ text, Toml.write all = .ok text →
      tableIn file t' = Toml.read (Text.withLineFeeds text) := by
    intro text written
    rw [bytesOf, written] at content
    rw [tableIn, FileTree.readText_of_read content]
    rfl
  rw [Atomic, done]
  dsimp only
  rw [content, read, Except.ok.injEq]
  refine or_congr_left ?_
  constructor
  · rintro ⟨answer, before', after, table, table', spares⟩
    obtain ⟨text, written, -⟩ := Run.map_eq_ok_iff.mp answer
    have same : before' = before := by
      rw [readAll_eq read, table] at read'
      exact Except.ok.inj read'
    subst same
    refine ⟨by rw [table]; rintro ⟨⟩, text, after, written, ?_, (spares_iff applied).mp spares⟩
    rw [← spelled text written, table']
  · rintro ⟨readable, text, again, written, back, same⟩
    have table := (tableIn_of_readAll read read').resolve_right readable
    refine ⟨by rw [written]; rfl, before, again, table, ?_, (spares_iff applied).mpr same⟩
    rw [spelled text written, back]

/-- The file of the settings with a text in it. -/
def homeWith (text : Text) : FileTree := home.put homeFile.parts (.file (Text.encode text))

theorem read_homeWith (text : Text) : (homeWith text).read homeFile = .ok (Text.encode text) := by
  cbv

theorem tableIn_homeWith (text : Text) :
    tableIn homeFile (homeWith text) = Toml.read (Text.withLineFeeds text) := by
  rw [tableIn, FileTree.readText_of_read (read_homeWith text)]
  rfl

def ignoring : Change := .save scanSection "respect_gitignore" (.bool false)

/-- The section that `ignoring` makes. -/
def ignored : Text × Value := (scanSection, .table [("respect_gitignore", .bool false)])

/-- The section `[refactoring]` of the texts below. -/
def tolerant : Text × Value := (reviewSection, .table [("orphaned_threshold", .int 5)])

def isUnreadable : Except Fault (Entries Value) → Bool
  | .error .unreadable => true
  | _ => false

theorem isUnreadable_iff {table : Except Fault (Entries Value)} :
    isUnreadable table = true ↔ table = .error .unreadable := by
  constructor
  · intro unreadable
    rw [isUnreadable.eq_def] at unreadable
    split at unreadable
    · rfl
    · cases unreadable
  · rintro rfl
    rfl

/-- A header without its bracket. -/
def malformed : Text := "[refactoring]\norphaned_threshold = 5\n[scan\n"

/-- A text that begins with a character that cannot be written. -/
def unwritable : Text := "a = \"\\u0001\"\n[refactoring]\norphaned_threshold = 5\n"

end CodeAtlas.Settings
