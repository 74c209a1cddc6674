/-
# Settings.Section -- the settings and their defaults

The settings come in sections, and every setting has a default.  The default also says what kind of
value the setting takes: yes or no, a whole number, a number, or a list.  `parse` reads a setting
from the text a user types, according to its kind; `merge` lays what is stored over the defaults
and leaves out unknown settings and values of another kind.  Any number will do for a setting that
takes a number, whole or not.
-/
import CodeAtlas.Fault
import CodeAtlas.Text.Case

namespace CodeAtlas.Settings

set_option autoImplicit false

/-! ## Defaults -/

/-- Texts as a list value. -/
def words (ts : List String) : Value := .list (ts.map fun t => .text t.toList)

def reviewDefaults : Entries Value :=
  [("similarity_threshold", .float (.ofFloat 0.8)),
   ("orphaned_threshold", .int 90),
   ("single_use_threshold", .int 2),
   ("too_large_threshold", .int 50),
   ("too_small_threshold", .int 2),
   ("enabled_checks",
    words ["duplicate", "similar", "orphaned", "inconsistent_naming", "single_use"])]

def scanDefaults : Entries Value :=
  [("respect_gitignore", .bool true), ("extra_skip_dirs", .list [])]

def reviewSection : Text := "refactoring"

def scanSection : Text := "scan"

/-- The defaults of every section. -/
def defaults : Entries (Entries Value) :=
  [(reviewSection, reviewDefaults), (scanSection, scanDefaults)]

/-- The default of a setting. -/
def default? (section_ key : Text) : Option Value :=
  (defaults.get? section_).bind fun settings => settings.get? key

/-! ## Kinds -/

/-- Is the value of the same kind as the default? -/
def sameKind : Value → Value → Bool
  | .bool _, .bool _ => true
  | .int _, .int _ => true
  | .int _, .float _ => true
  | .float _, .int _ => true
  | .float _, .float _ => true
  | .list _, .list _ => true
  | .text _, .text _ => true
  | .moment _, .moment _ => true
  | .table _, .table _ => true
  | .null, .null => true
  | _, _ => false

/-- Words for yes. -/
def yes : List Text := ["1", "true", "yes", "on"]

/-- Words for no. -/
def no : List Text := ["0", "false", "no", "off"]

/-- The setting of a section, as it is named in messages. -/
def fullName (section_ key : Text) : Text := section_ ++ '.' :: key

/-- A list from text with commas; empty pieces are dropped. -/
def parseList (raw : Text) : List Text :=
  ((Text.splitOn ',' raw).map Text.trim).filter (!·.isEmpty)

/-- A value for a setting from text. -/
def parse (section_ key raw : Text) : Except Fault Value :=
  match default? section_ key with
  | none => .error (.unknownSetting section_ key)
  | some (.bool _) =>
      let word := Text.lower (Text.trim raw)
      if yes.contains word then .ok (.bool true)
      else if no.contains word then .ok (.bool false)
      else .error (.truthText (fullName section_ key) raw)
  | some (.int _) => (readInteger raw).map .int
  | some (.float _) => (readNumber raw).map .float
  | some (.list _) => .ok (.list ((parseList raw).map .text))
  | some _ => .ok (.text raw)

/-! ## Merging -/

/-- One stored setting laid over the settings, if it can be used. -/
def lay (defaults : Entries Value) (settings : Entries Value) (stored : Text × Value) :
    Entries Value :=
  match defaults.get? stored.1 with
  | none => settings
  | some d => if sameKind d stored.2 then settings.set stored.1 stored.2 else settings

/-- The defaults with what is stored laid over them. -/
def merge (defaults stored : Entries Value) : Entries Value := stored.foldl (lay defaults) defaults

/-- A section of the stored settings, laid over its defaults. -/
def sectionOf (all : Entries Value) (section_ : Text) : Except Fault (Entries Value) :=
  match defaults.get? section_ with
  | none => .error (.unknownSection section_)
  | some defaults => .ok (merge defaults (((all.get? section_).bind Value.table?).getD []))

end CodeAtlas.Settings
