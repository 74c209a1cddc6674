/-
# CommandLine.Overview -- what the saved groups look like

The groups of a corpus as a table of names, as a list of places, and as a tree of the hierarchy;
issues and suggestions as tables.  Names and paths are shown as they are, not as markup.
-/
import CodeAtlas.Corpus
import CodeAtlas.Hierarchy.Forest
import CodeAtlas.Naming.Suggestion
import CodeAtlas.Number.Percent
import CodeAtlas.Review.Check
import CodeAtlas.Store.Record
import CodeAtlas.Terminal.Markup
import CodeAtlas.Terminal.Table
import CodeAtlas.Terminal.Tree

namespace CodeAtlas.CommandLine

set_option autoImplicit false

open Terminal (Markup.escape Markup.literal Markup.shown)

/-- A heading with the number of what is below it. -/
def counted (heading : Text) (n : Nat) : Text := heading ++ " (" ++ Number.showNat n ++ ")"

/-! ## Names -/

/-- How often each name occurs, and in how many files. -/
def namesTable (ds : Review.Definitions) : Terminal.Table :=
  { title := "Code Groups"
    columns := [{ heading := "Functionality" }, { heading := "Occurrences", numeric := true },
      { heading := "Files", numeric := true }]
    rows := (Text.sort ds.keys).map fun name =>
      let groups := Review.groupsOf ds name
      [Markup.literal name, Number.showNat groups.length,
        Number.showNat (Review.files groups).length] }

/-- The groups of the names of one level. -/
def onLevel (ds : Review.Definitions) (level : Int) : Review.Definitions :=
  let wanted := Hierarchy.atLevel (ds.flatMap Prod.snd) level
  ds.filter fun d => wanted.contains d.1

/-! ## Places -/

/-- The markup for the place of one group. -/
def placeLine (s : Store) (g : Group) : Text :=
  let place := s.toRelative g.filePath ++ ":" ++ Number.showInt g.firstLine
  let size : Text := "[dim](" ++ Number.showNat g.lines.length ++ " lines)[/dim]"
  let description : Text :=
    if g.description.isEmpty then [] else "  " ++ Markup.escape g.description
  "  ".toList ++ Markup.escape place ++ "  " ++ size ++ description

/-- The markup for the places of the groups, file type by file type. -/
def placeLines (s : Store) (c : Corpus) : List Text :=
  (Text.sort c.keys).flatMap fun fileType =>
    ("[bold]".toList ++ Markup.escape fileType ++ "[/bold]") ::
      ((c.get? fileType).getD []).map (placeLine s)

/-! ## Hierarchy -/

/-- Branches in the order of their names. -/
def inOrder (named : List (Text × Terminal.Tree)) : List Terminal.Tree :=
  (named.mergeSort fun a b => Text.le a.1 b.1).map Prod.snd

/-- The label of a path: its last segment, and the number of groups at and below it. -/
def nodeLabel (name : Text) (count : Nat) : Text :=
  Markup.shown (Markup.escape name ++ " [dim](" ++ Number.showNat count ++ ")[/dim]")

mutual

/-- A path as a branch, with its name; below the level `depth?` nothing is drawn. -/
def branch (depth? : Option Int) : Hierarchy.Node → Text × Terminal.Tree
  | ⟨name, fullPath, level, groups, children⟩ =>
      let count := Hierarchy.Forest.countNode ⟨name, fullPath, level, groups, children⟩
      let below := inOrder (branches depth? children)
      (name,
        { label := nodeLabel name count
          branches := if depth?.all ((level : Int) < ·) then below else [] })

def branches (depth? : Option Int) : List Hierarchy.Node → List (Text × Terminal.Tree)
  | [] => []
  | n :: rest => branch depth? n :: branches depth? rest

end

/-- The whole hierarchy. -/
def hierarchyTree (depth? : Option Int) (forest : Hierarchy.Forest) : Terminal.Tree :=
  { label := "Functionalities", branches := inOrder (branches depth? forest) }

/-! ## Issues and suggestions -/

def issuesTable (issues : List Review.Issue) : Terminal.Table :=
  { title := counted "Refactoring Issues" issues.length
    columns := [{ heading := "Severity" }, { heading := "Type" }, { heading := "Group" },
      { heading := "Message" }]
    rows := issues.map fun i =>
      [i.severity.name, i.kind.name, Markup.literal i.group, Markup.literal i.message] }

def suggestionsTable (suggestions : List Naming.Suggestion) : Terminal.Table :=
  { title := counted "Naming Suggestions" suggestions.length
    columns := [{ heading := "Type" }, { heading := "Group" }, { heading := "Suggested" },
      { heading := "Confidence", numeric := true }]
    rows := suggestions.map fun s =>
      [s.basis.kind, Markup.literal s.current, Markup.literal s.suggested,
        Number.showPercent s.confidence] }

/-- The settings of a section. -/
def settingsTable (section_ : Text) (settings : Entries Value) : Terminal.Table :=
  { title := "[" ++ section_ ++ "]"
    columns := [{}, {}]
    headed := false
    rows := settings.map fun e => [e.1, Markup.literal e.2.shown] }

end CodeAtlas.CommandLine
