/-
# Settings.File -- the settings of a user, in a file

The settings are kept in a TOML file.  A file that is missing, cannot be opened or is unreadable
holds no settings; any other fault in its text makes the operation fail, and a table that is not
there fails it as a value of the wrong kind does.  Saving a setting or dropping a section writes the
whole file anew from what was read, so whatever else was in it is kept -- as far as it could be
read.

The directory of the file is made first.  A file that cannot be opened for writing is left alone,
and the answer is `false`.
-/
import CodeAtlas.FileTree.Change
import CodeAtlas.Settings.Section
import CodeAtlas.Toml.Document
import CodeAtlas.Toml.Writer

namespace CodeAtlas.Settings

set_option autoImplicit false

open FileTree (Script)

/-! ## Reading -/

/-- The settings in the text of a file. -/
def readText (text : Text) : Except Fault (Entries Value) :=
  match Toml.read text with
  | .error .unreadable => .ok []
  | .error .noSuchMember => .error .wrongKind
  | read => read

/-- All stored settings. -/
def readAll (file : Path) (t : FileTree) : Except Fault (Entries Value) :=
  match t.readText file with
  | .ok text => readText text
  | .error .undecodable => .error .undecodable
  | .error _ => .ok []

/-- The settings of a section. -/
def load (file : Path) (section_ : Text) (t : FileTree) : Except Fault (Entries Value) :=
  if (defaults.get? section_).isNone then .error (.unknownSection section_)
  else (readAll file t).bind fun all => sectionOf all section_

/-! ## Writing -/

/-- Write all settings; the file is emptied before its new text is made. -/
def writeAll (file : Path) (all : Entries Value) : Script Bool := do
  Script.change (·.makeDirectories ⟨file.root, file.parts.dropLast⟩)
  match (← get).write file [] with
  | .error _ => return false
  | .ok emptied =>
      set emptied
      let text ← Script.ask fun _ => Toml.write all
      Script.change (·.writeText file text)
      return true

/-- Store one setting. -/
def save (file : Path) (section_ key : Text) (v : Value) : Script Bool := do
  if (default? section_ key).isNone then throw (.unknownSetting section_ key)
  let all ← Script.ask (readAll file)
  match (all.get? section_).getD (.table []) with
  | .table settings => writeAll file (all.set section_ (.table (Entries.set settings key v)))
  | _ => throw .wrongKind

/-- Store a setting given as text. -/
def saveText (file : Path) (section_ key raw : Text) : Script Bool := do
  save file section_ key (← Script.ask fun _ => parse section_ key raw)

/-- Drop a section, which restores its defaults. -/
def reset (file : Path) (section_ : Text) : Script Bool := do
  let all ← Script.ask (readAll file)
  writeAll file (all.erase section_)

end CodeAtlas.Settings
