/-
# Proofs.Settings.Change -- what storing a setting and dropping a section do

Both are one operation on the file (`perform_script`): all settings are read, changed
(`Change.apply`) and written anew.  A change concerns its own settings and no others: after it a
setting has what the change stores, nothing if the change drops its section, and else what it had
(`get?_apply`).

Writing empties the file first (`perform_writeAll`), so a file that can be written (`CanFill`) holds
the new text afterwards, or nothing if there is no such text (`exists_writeAll`).  A file that can
be read can be written (`canFill_of_read`).
-/
import CodeAtlas.Proofs.FileTree.Rewrite
import CodeAtlas.Proofs.Settings.Section
import CodeAtlas.Settings.File

namespace CodeAtlas.Settings

set_option autoImplicit false

open FileTree (Script)

/-- The settings that are stored in a section. -/
def settingsIn (all : Entries Value) (section_ : Text) : Entries Value :=
  ((all.get? section_).bind Value.table?).getD []

theorem settingsIn_of_get? {all settings : Entries Value} {section_ : Text}
    (table : all.get? section_ = some (.table settings)) : settingsIn all section_ = settings := by
  rw [settingsIn, table]
  rfl

/-- A section with a setting in it is a table. -/
theorem exists_table {all : Entries Value} {section_ key : Text} {v : Value}
    (stored : (settingsIn all section_).get? key = some v) :
    all.get? section_ = some (.table (settingsIn all section_)) := by
  rw [settingsIn] at stored ⊢
  cases found : all.get? section_ with
  | none =>
      rw [found] at stored
      cases stored
  | some w =>
      rw [found] at stored
      cases w with
      | table settings => rfl
      | _ => cases stored

/-- A setting is stored, or a section is dropped. -/
inductive Change where
  | save (section_ key : Text) (v : Value)
  | reset (section_ : Text)

variable {c : Change} {all all' : Entries Value} {section_ key : Text} {file : Path}
  {t t' : FileTree}

namespace Change

/-- The section that is written to. -/
def sectionName : Change → Text
  | save section_ _ _ => section_
  | reset section_ => section_

/-- The value that the change stores for a setting. -/
def saved? (section_ key : Text) : Change → Option Value
  | save section' key' v => if section_ = section' ∧ key = key' then some v else none
  | reset _ => none

/-- Does the change drop the section? -/
def resets (section_ : Text) : Change → Bool
  | save _ _ _ => false
  | reset section' => section_ = section'

theorem saved?_of_resets (dropped : c.resets section_ = true) : c.saved? section_ key = none := by
  cases c with
  | save section' key' v => cases dropped
  | reset section' => rfl

/-- Is the setting one that the program knows?  Any section may be dropped. -/
def isKnown : Change → Bool
  | save section_ key _ => (default? section_ key).isSome
  | reset _ => true

/-! ## On the settings -/

/-- The settings after the change.  A section that is no table takes no setting. -/
def apply : Change → Entries Value → Except Fault (Entries Value)
  | save section_ key v, all =>
      match (all.get? section_).getD (.table []) with
      | .table settings => .ok (all.set section_ (.table (Entries.set settings key v)))
      | _ => .error .wrongKind
  | reset section_, all => .ok (all.erase section_)

theorem save_apply_eq_ok_iff {v : Value} : (save section_ key v).apply all = .ok all' ↔
    (all.get? section_).getD (.table []) = .table (settingsIn all section_) ∧
      all' = all.set section_ (.table ((settingsIn all section_).set key v)) := by
  rw [apply, settingsIn]
  cases all.get? section_ with
  | none => simp [eq_comm]
  | some w => cases w <;> simp [Value.table?, eq_comm]

/-- The sections that are not written to stay as they are. -/
theorem get?_apply_of_ne (applied : c.apply all = .ok all') (other : section_ ≠ c.sectionName) :
    all'.get? section_ = all.get? section_ := by
  cases c with
  | save section' key v =>
      obtain ⟨-, rfl⟩ := save_apply_eq_ok_iff.mp applied
      rw [Entries.get?_set]
      exact if_neg other
  | reset section' =>
      cases applied
      rw [Entries.get?_erase]
      exact if_neg other

/-- **A setting has what the change stores, nothing if its section is dropped, and else what it
had.** -/
theorem get?_apply (applied : c.apply all = .ok all') (section_ key : Text) :
    (settingsIn all' section_).get? key =
      (c.saved? section_ key).or
        (if c.resets section_ then none else (settingsIn all section_).get? key) := by
  by_cases here : section_ = c.sectionName
  · cases c with
    | save section' key' v =>
        obtain ⟨-, rfl⟩ := save_apply_eq_ok_iff.mp applied
        change section_ = section' at here
        subst here
        rw [settingsIn_of_get? (by rw [Entries.get?_set, if_pos rfl]), Entries.get?_set]
        by_cases same : key = key' <;> simp [saved?, resets, same]
    | reset section' =>
        cases applied
        change section_ = section' at here
        subst here
        have dropped : settingsIn (all.erase section_) section_ = [] := by
          rw [settingsIn, Entries.get?_erase, if_pos rfl]
          rfl
        rw [dropped]
        simp [saved?, resets]
  · have kept : settingsIn all' section_ = settingsIn all section_ := by
      rw [settingsIn, get?_apply_of_ne applied here, settingsIn]
    have other : c.saved? section_ key = none ∧ c.resets section_ = false := by
      cases c with
      | save section' key' v => exact ⟨if_neg fun both => here both.1, rfl⟩
      | reset section' => exact ⟨rfl, decide_eq_false here⟩
    rw [kept, other.1, other.2]
    rfl

/-! ## On the file -/

/-- The change made in a file. -/
def script (file : Path) : Change → Script Bool
  | save section_ key v => Settings.save file section_ key v
  | reset section_ => Settings.reset file section_

end Change

/-- Writing makes the directory, empties the file and fills it. -/
theorem perform_writeAll : (writeAll file all).perform t =
    match t.makeDirectories ⟨file.root, file.parts.dropLast⟩ with
    | .error f => (.error f, t)
    | .ok ready =>
        match ready.write file [] with
        | .error _ => (.ok false, ready)
        | .ok emptied =>
            match Toml.write all with
            | .error f => (.error f, emptied)
            | .ok text =>
                match emptied.writeText file text with
                | .error f => (.error f, emptied)
                | .ok t' => (.ok true, t') := by
  rw [writeAll, Script.perform_bind_eq, Script.perform_change_eq]
  cases t.makeDirectories ⟨file.root, file.parts.dropLast⟩ with
  | error f => rfl
  | ok ready =>
      dsimp only
      rw [Script.perform_bind_eq, Script.perform_get]
      dsimp only
      cases ready.write file [] with
      | error f => rfl
      | ok emptied =>
          dsimp only
          rw [Script.perform_bind_eq, Script.perform_set]
          dsimp only
          rw [Script.perform_bind_eq, Script.perform_ask_eq]
          cases Toml.write all with
          | error f => rfl
          | ok text =>
              dsimp only
              rw [Script.perform_bind_eq, Script.perform_change_eq]
              cases emptied.writeText file text with
              | error f => rfl
              | ok t' => rfl

/-- Writing that ends well has written the text of the settings. -/
theorem of_perform_writeAll (done : (writeAll file all).perform t = (.ok true, t')) :
    ∃ emptied text, Toml.write all = .ok text ∧
      FileTree.writeText emptied file text = .ok t' := by
  rw [perform_writeAll] at done
  split at done
  · cases done
  split at done
  · cases done
  split at done
  · cases done
  rename_i emptied _ _ text written
  split at done
  · cases done
  · rename_i filled
    cases done
    exact ⟨emptied, text, written, filled⟩

/-- **A change reads all settings and writes them anew.** -/
theorem perform_script (known : c.isKnown = true) : (c.script file).perform t =
    match (readAll file t).bind c.apply with
    | .error f => (.error f, t)
    | .ok all => (writeAll file all).perform t := by
  cases c with
  | save section_ key v =>
      change (Settings.save file section_ key v).perform t = _
      have unknown : ¬ (default? section_ key).isNone = true := by
        rw [Option.isNone_iff_eq_none]
        exact Option.isSome_iff_ne_none.mp known
      rw [Settings.save, if_neg unknown, Script.perform_bind_eq, Script.perform_ask_eq]
      cases readAll file t with
      | error f => rfl
      | ok all =>
          change _ = match Change.apply (.save section_ key v) all with
            | .error f => (Except.error f, t)
            | .ok all => (writeAll file all).perform t
          rw [Change.apply]
          dsimp only
          cases (all.get? section_).getD (.table []) <;> rfl
  | reset section_ =>
      change (Settings.reset file section_).perform t = _
      rw [Settings.reset, Script.perform_bind_eq, Script.perform_ask_eq]
      cases readAll file t with
      | error f => rfl
      | ok all => rfl

/-- A change that can be made comes to writing. -/
theorem perform_script_of_apply (known : c.isKnown = true) (read : readAll file t = .ok all)
    (applied : c.apply all = .ok all') :
    (c.script file).perform t = (writeAll file all').perform t := by
  have changed : (readAll file t).bind c.apply = .ok all' := by
    rw [read]
    exact applied
  rw [perform_script known, changed]

/-! ## A file that can be written -/

/-- The file can be made, or emptied if it is there. -/
def CanFill (file : Path) (t : FileTree) : Prop :=
  ∃ ready emptied, t.makeDirectories ⟨file.root, file.parts.dropLast⟩ = .ok ready ∧
    ready.write file [] = .ok emptied ∧ emptied.read file = .ok []

/-- A file that can be read can be written. -/
theorem canFill_of_read {old : Bytes} (read : t.read file = .ok old) : CanFill file t := by
  have ready : t.makeDirectories ⟨file.root, file.parts.dropLast⟩ = .ok t := by
    rcases List.eq_nil_or_concat file.parts with none_ | ⟨names, name, some_⟩
    · rw [none_]
      rfl
    · rw [List.concat_eq_append] at some_
      rw [some_, List.dropLast_concat]
      have read' : t.read ⟨file.root, names ++ [name]⟩ = .ok old := by
        rw [← some_]
        exact read
      exact FileTree.makeDirectories_of_read read' (by simp)
  obtain ⟨emptied, opened, empty⟩ := FileTree.exists_write_of_read read []
  exact ⟨t, emptied, ready, opened, empty⟩

/-- The bytes that writing the settings leaves behind: none when they have no text. -/
def bytesOf (all : Entries Value) : Bytes := ((Toml.write all).toOption.map Text.encode).getD []

/-- **A file that can be written is filled anew**; the answer is `true` if there is a text to fill
it with. -/
theorem exists_writeAll (can : CanFill file t) (all : Entries Value) :
    ∃ t', (writeAll file all).perform t = ((Toml.write all).map fun _ => true, t') ∧
      t'.read file = .ok (bytesOf all) := by
  obtain ⟨ready, emptied, made, opened, empty⟩ := can
  rw [perform_writeAll, made, bytesOf]
  simp only [opened]
  cases Toml.write all with
  | error f => exact ⟨emptied, rfl, empty⟩
  | ok text =>
      obtain ⟨t', filled, full⟩ := FileTree.exists_write_of_read empty (Text.encode text)
      refine ⟨t', ?_, full⟩
      simp only [FileTree.writeText, filled]
      rfl

end CodeAtlas.Settings
