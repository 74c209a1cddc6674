/-
# CommandLine.Command -- what can be asked for

The commands with everything they need to know, and how they are read from the arguments of the
program.  The first operand names the command; the settings have commands of their own.  Help and
the version are answered wherever their options stand before the name of a command.

A name that is no command is refused.  Should it look like an option -- it can, after `--` -- it is
refused as one first.
-/
import CodeAtlas.CommandLine.Arguments

namespace CodeAtlas.CommandLine

set_option autoImplicit false

/-- A command and what it is about. -/
inductive Command where
  | help
  | version
  /-- Scan a workspace, or one of its files, and save what is found. -/
  | scan (workspace : Path) (respectIgnoreFile : Bool) (file? : Option Path)
  /-- List all groups, or those of one level. -/
  | groups (workspace : Path) (level? : Option Int)
  /-- Show where a group is. -/
  | lookUp (name : Text) (workspace : Path)
  /-- Show the hierarchy, down to some level. -/
  | tree (workspace : Path) (depth? : Option Int)
  /-- Review the groups; some checks only, if there are any. -/
  | analyze (workspace : Path) (checks : List Text) (asReport : Bool) (output? : Option Path)
  /-- Suggest names for all groups, or look for one that a new name repeats. -/
  | suggest (workspace : Path) (name? : Option Text) (asReport : Bool)
  /-- Write an annotation comment. -/
  | comment (name fileType : Text) (description? : Option Text) (tags : List Text)
  | showSettings
  | setSetting (name value : Text)
  | resetSettings (section_ : Text)
  deriving DecidableEq, Repr

namespace Command

/-- The workspace a command is about. -/
def workspace? : Command → Option Path
  | .scan w _ _ | .groups w _ | .lookUp _ w | .tree w _ | .analyze w _ _ _
  | .suggest w _ _ => some w
  | _ => none

/-- Does the command look at all files of its workspace? -/
def looksEverywhere : Command → Bool
  | .scan _ _ none => true
  | _ => false

/-! ## The forms of the commands -/

def workspace : Operand := { kind := .directory, absent := some "." }

def word : Operand := { kind := .text }

def scanForm : Form :=
  { switches := [{ long := "no-gitignore" }, { long := "file", short := 'f', kind := some .file }]
    operands := [workspace] }

def groupsForm : Form :=
  { switches := [{ long := "level", short := 'l', kind := some .count }]
    operands := [workspace] }

def showForm : Form := { operands := [word, workspace] }

def treeForm : Form :=
  { switches := [{ long := "depth", short := 'd', kind := some .count }]
    operands := [workspace] }

def analyzeForm : Form :=
  { switches := [{ long := "check", short := 'c', kind := some .text }, { long := "report" },
      { long := "output", short := 'o', kind := some .path }]
    operands := [workspace] }

def suggestForm : Form :=
  { switches := [{ long := "name", short := 'n', kind := some .text }, { long := "report" }]
    operands := [workspace] }

def commentForm : Form :=
  { switches := [{ long := "file-type", short := 't', kind := some .text },
      { long := "description", short := 'd', kind := some .text },
      { long := "tag", kind := some .text }]
    operands := [word] }

/-- How a command is read from its arguments. -/
abbrev Reading := List Text → Except Misuse Command

/-- Read by filling in a form, and making a command of it. -/
def byForm (t : FileTree) (here : Path) (form : Form) (command : Filled → Command) : Reading :=
  fun args => (form.fill t here args).map fun filled? => (filled?.map command).getD .help

/-! ## Commands by name -/

/-- The commands about the settings. -/
def settingsCommands (t : FileTree) (here : Path) : Entries Reading :=
  [("show", byForm t here {} fun _ => .showSettings),
   ("set", byForm t here { operands := [word, word] } fun f =>
      .setSetting (f.operand 0) (f.operand 1)),
   ("reset", byForm t here { operands := [word] } fun f => .resetSettings (f.operand 0))]

/-- The option that asks for the version of the program. -/
def versionSwitch : Switch := { long := "version", short := 'V' }

/-- What is read from the options before a command, if that is all that is wanted. -/
def leading? (uses : List Use) : Option Command :=
  uses.findSome? fun u =>
    if u.1.long == helpSwitch.long then some .help
    else if u.1.long == versionSwitch.long then some .version
    else none

/-- Read options, and after them the name of a command and its arguments. -/
def byName (switches : List Switch) (commands : Entries Reading) : Reading := fun args => do
  if args.isEmpty then throw .nothingAsked
  let s ← separate switches false args
  match leading? s.uses, s.operands with
  | some command, _ => return command
  | none, [] => throw .unexpected
  | none, name :: rest =>
      match commands.get? name with
      | some reading => reading rest
      | none =>
          match leading? (← separate switches false (name :: rest)).uses with
          | some command => return command
          | none => throw .unexpected

/-- All commands. -/
def commands (t : FileTree) (here : Path) : Entries Reading :=
  [("scan", byForm t here scanForm fun f =>
      .scan (f.operandPath 0) (!f.isGiven "no-gitignore") (f.path? "file")),
   ("groups", byForm t here groupsForm fun f => .groups (f.operandPath 0) (f.number? "level")),
   ("show", byForm t here showForm fun f => .lookUp (f.operand 0) (f.operandPath 1)),
   ("tree", byForm t here treeForm fun f => .tree (f.operandPath 0) (f.number? "depth")),
   ("analyze", byForm t here analyzeForm fun f =>
      .analyze (f.operandPath 0) (f.values "check") (f.isGiven "report") (f.path? "output")),
   ("suggest", byForm t here suggestForm fun f =>
      .suggest (f.operandPath 0) (f.value? "name") (f.isGiven "report")),
   ("comment", byForm t here commentForm fun f =>
      .comment (f.operand 0) ((f.value? "file-type").getD "js") (f.value? "description")
        (f.values "tag")),
   ("config", byName [helpSwitch] (settingsCommands t here))]

/-- The options of the program itself. -/
def programSwitches : List Switch :=
  [helpSwitch, versionSwitch, { long := "verbose", short := 'v' }]

/-- The command in the arguments of the program, where paths are seen from `here`. -/
def read (t : FileTree) (here : Path) : Reading := byName programSwitches (commands t here)

end Command

end CodeAtlas.CommandLine
