/-
# CommandLine.Run -- what the commands do

`answer` carries out one command, `run` reads a command from arguments and carries it out.  The
workspace of a command has to exist; all commands but the one that scans need saved groups.  A
check that does not exist is refused only after the settings have been read, since those are read
first.
-/
import CodeAtlas.CommandLine.Command
import CodeAtlas.CommandLine.Overview
import CodeAtlas.CommandLine.Session
import CodeAtlas.Language.Comment
import CodeAtlas.Naming.Report
import CodeAtlas.Review.Report
import CodeAtlas.Settings.File
import CodeAtlas.Store.Refresh

namespace CodeAtlas.CommandLine

set_option autoImplicit false

open Session
open Terminal (Markup.escape)

def versionLine : Text := "GroupCode CLI v1.0.0"

def nothingFound : Outcome := .echo ["No code groups found."]

/-! ## Help -/

def helpLines : List Text :=
  ["Usage: groupcode COMMAND [ARGUMENTS]", "", "Commands:", "  scan", "  groups", "  show",
   "  tree", "  analyze", "  suggest", "  comment", "  config show|set|reset"]

/-! ## Scanning -/

/-- The place of a file that can be scanned. -/
def sourceFile (s : Surroundings) (file : Path) : Session Path := do
  let place ← ask (·.realPath (s.here ++ file))
  let fileType := Language.fileType place.toText
  if !Language.isSupported fileType then
    refuse ("Unsupported file type '".toList ++ fileType ++ "'.")
  return place

/-- How the settings want a workspace to be scanned. -/
def scanOptions (s : Surroundings) (respectIgnoreFile : Bool) : Session Workspace.Options := do
  let settings ← ask (Settings.load s.settingsFile Settings.scanSection)
  let o ← lift (Workspace.Options.ofEntries settings)
  return { o with respectIgnoreFile := o.respectIgnoreFile && respectIgnoreFile }

def scan (s : Surroundings) (workspace : Path) (respectIgnoreFile : Bool) (file? : Option Path) :
    Session Outcome := do
  let store ← openStore s workspace
  let (corpus, index) ← match file? with
    | some file => Session.run (store.refreshFile (← sourceFile s file))
    | none => Session.run (store.refresh (← scanOptions s respectIgnoreFile))
  return .printed
    ["[green]✓[/green] Found ".toList ++ Number.showNat corpus.groups.length ++
        " code groups in " ++ Number.showNat corpus.length ++ " file types.",
      "  [dim]Functionalities[/dim] ".toList ++ Number.showNat index.length,
      "  [dim]Saved to[/dim]        ".toList ++ Markup.escape store.groupsPath.toText]

/-! ## Looking at groups -/

def groups (s : Surroundings) (workspace : Path) (level? : Option Int) : Session Outcome := do
  let (_, corpus) ← savedGroups s workspace
  let all := corpus.byFunctionality
  let wanted := level?.elim all (onLevel all)
  return if wanted.isEmpty then nothingFound else .drawn (namesTable wanted).lines

def lookUp (s : Surroundings) (name : Text) (workspace : Path) : Session Outcome := do
  let (store, corpus) ← savedGroups s workspace
  let found := corpus.named name
  if found.isEmpty then refuse ("Functionality '".toList ++ name ++ "' not found.")
  return .printed (placeLines store found)

def tree (s : Surroundings) (workspace : Path) (depth? : Option Int) : Session Outcome := do
  let (_, corpus) ← savedGroups s workspace
  let forest := Hierarchy.Forest.ofGroups corpus.groups
  if forest.isEmpty then return nothingFound
  let summary := Number.showNat (Hierarchy.Forest.walk forest).length ++ " nodes, max depth " ++
    Number.showNat (Hierarchy.depth corpus.groups)
  return .drawn ((hierarchyTree depth? forest).lines ++ [summary])

/-! ## Review -/

/-- The options of the settings, with the checks asked for. -/
def reviewOptions (s : Surroundings) (checks : List Text) : Session Review.Options := do
  let settings ← ask (Settings.load s.settingsFile Settings.reviewSection)
  let o ← lift (Review.Options.ofEntries settings)
  if checks.isEmpty then return o
  match checks.mapM fun check => Review.Kind.ofValue (.text check) with
  | .ok kinds => return { o with checks := kinds }
  | .error f =>
      refuse (f.message.getD [] ++ ". Valid checks: " ++
        Text.join ", " (Review.Kind.all.map (·.name)))

def analyze (s : Surroundings) (workspace : Path) (checks : List Text) (asReport : Bool)
    (output? : Option Path) : Session Outcome := do
  let (_, corpus) ← savedGroups s workspace
  let issues ← lift (Review.issues (← reviewOptions s checks) s.clock corpus.byFunctionality)
  match output? with
  | some output =>
      let report ← lift (Review.report issues)
      Session.run (FileTree.Script.change (·.writeText (s.here ++ output) report))
      return .echo ["Report written to ".toList ++ output.toText]
  | none =>
      if asReport then return .echo [← lift (Review.report issues)]
      if issues.isEmpty then return .printed ["[green]✓[/green] No refactoring issues found."]
      return .drawn (issuesTable issues).lines

/-! ## Names -/

/-- What is known about a new name. -/
def nameLines (name : Text) (groups : List Group) : List Text :=
  let match? := Naming.matchingName? name groups
  let hierarchy? := Naming.suggestedName? name groups
  let line (label name : Text) : Text := label ++ "[yellow]" ++ Markup.escape name ++ "[/yellow]"
  if match?.isNone && hierarchy?.isNone then
    ["[green]✓[/green] '".toList ++ Markup.escape name ++ "' does not match any existing group."]
  else
    (match?.map (line "Existing group: ")).toList ++
      (hierarchy?.map (line "Suggested hierarchy: ")).toList

def suggest (s : Surroundings) (workspace : Path) (name? : Option Text) (asReport : Bool) :
    Session Outcome := do
  let (_, corpus) ← savedGroups s workspace
  match name?.filter (!·.isEmpty) with
  | some name => return .printed (nameLines name corpus.groups)
  | none =>
      let analysis := Naming.Analysis.ofGroups corpus.groups
      if asReport then return .echo [analysis.report]
      if analysis.all.isEmpty then return .printed ["[green]✓[/green] No naming suggestions."]
      return .drawn (suggestionsTable analysis.all).lines

def comment (name fileType : Text) (description? : Option Text) (tags : List Text) :
    Session Outcome := do
  if !Hierarchy.isValid name then
    refuse ("Invalid group name '".toList ++ name ++
      "'. Use letters, digits, spaces, '-' or '_' between '>'.".toList)
  return .echo [Language.annotationComment name description? tags fileType]

/-! ## Settings -/

def showSettings (s : Surroundings) : Session Outcome := do
  let tables ← (Settings.defaults.keys).mapM fun section_ => do
    return (settingsTable section_ (← ask (Settings.load s.settingsFile section_))).lines
  let place := "[dim]Config file[/dim] ".toList ++ Markup.escape s.settingsFile.toText
  return .drawn ((Outcome.printedLines [place]) ++ tables.flatten)

/-- The outcome of writing the settings: nothing but the exit code if they cannot be written. -/
def written (done : Bool) (line : Text) : Outcome :=
  if done then .echo [line] else { exitCode := 1 }

def setSetting (s : Surroundings) (name value : Text) : Session Outcome := do
  let (section_, key?) := Text.cut '.' name
  let key := key?.getD []
  if key.isEmpty then refuse "Use SECTION.KEY, e.g. refactoring.similarity_threshold"
  match Settings.parse section_ key value with
  | .error (.unknownSetting ..) => refuse ("Unknown setting '".toList ++ name ++ "'.")
  | .error f => refuse (f.message.getD [])
  | .ok v =>
      let done ← Session.run (Settings.save s.settingsFile section_ key v)
      return written done ("Set ".toList ++ section_ ++ "." ++ key ++ " = " ++ v.literal)

def resetSettings (s : Surroundings) (section_ : Text) : Session Outcome := do
  if !Settings.defaults.contains section_ then
    refuse ("Unknown section '".toList ++ section_ ++ "'.")
  let done ← Session.run (Settings.reset s.settingsFile section_)
  return written done ("Reset [".toList ++ section_ ++ "] to defaults.")

/-! ## All commands -/

def answer (s : Surroundings) : Command → Session Outcome
  | .help => return .echo helpLines
  | .version => return .echo [versionLine]
  | .scan workspace respectIgnoreFile file? => scan s workspace respectIgnoreFile file?
  | .groups workspace level? => groups s workspace level?
  | .lookUp name workspace => lookUp s name workspace
  | .tree workspace depth? => tree s workspace depth?
  | .analyze workspace checks asReport output? => analyze s workspace checks asReport output?
  | .suggest workspace name? asReport => suggest s workspace name? asReport
  | .comment name fileType description? tags => comment name fileType description? tags
  | .showSettings => showSettings s
  | .setSetting name value => setSetting s name value
  | .resetSettings section_ => resetSettings s section_

/-- Read the arguments and do what they ask for. -/
def run (s : Surroundings) (args : List Text) : Session Outcome := do
  match Command.read (← get) s.here args with
  | .ok command => answer s command
  | .error m => throw (.misuse m)

end CodeAtlas.CommandLine
