/-
# Main -- the program

The program looks at the files that a command needs, lets the command run on what it has seen, and
writes back what the command has changed.  Of a workspace that is to be scanned it sees everything
but the directories that no scan enters; of any other workspace it sees the saved groups.

Links are taken to lead straight to their real place; a link that leads nowhere is not seen.
-/
import CodeAtlas.CommandLine.Run
import Std.Time.DateTime.Timestamp

namespace CodeAtlas.CommandLine

set_option autoImplicit false

/-! ## Seeing -/

/-- A place as the system names it. -/
def systemName (p : Place) : String := String.ofList (Path.toText ⟨1, p⟩)

/-- What stands at a place; a directory without what is below it. -/
def nodeAt (p : Place) : IO (Option FileNode) := do
  let name := (← IO.currentDir) / systemName p
  try
    match (← name.symlinkMetadata).type with
    | .dir => return some .directory
    | .file => return some (.file (← IO.FS.readBinFile name).toList)
    | .symlink =>
        let target := (← IO.FS.realPath name).toString
        return if target == systemName p then none else some (.link target.toList)
    | .other => return none
  catch _ => return none

/-- See everything on the way from a place along some names. -/
partial def seeAlong (t : FileTree) (here : Place) : List Text → IO FileTree
  | [] => return t
  | name :: rest => do
      if name == ".." then return ← seeAlong t here.dropLast rest
      let place := here ++ [name]
      match ← nodeAt place with
      | none => return t
      | some node =>
          let t := t.put place node
          match node with
          | .directory => seeAlong t place rest
          | .link target => seeAlong t [] ((Path.ofText target).parts ++ rest)
          | .file _ => return t

/-- See what an absolute path leads to. -/
def see (t : FileTree) (p : Path) : IO FileTree := seeAlong t [] p.parts

/-- Is a directory of that name of no interest? -/
def isPassedOver (name : Text) : Bool :=
  Workspace.skippedDirectories.contains name && name != ".groupcode"

/-- Has something below a place been seen? -/
def hasBeenSeen (t : FileTree) (p : Place) : Bool := t.nodes.any (·.1.dropLast == p)

/-- See everything below a directory, and below the directories at or below `root` to which links
lead from there. -/
partial def seeBelow (root : Place) (t : FileTree) (p : Place) : IO FileTree := do
  let mut t := t
  for entry in ← ((← IO.currentDir) / systemName p).readDir do
    let name := entry.fileName.toList
    if let some node ← nodeAt (p ++ [name]) then
      t := { nodes := (p ++ [name], node) :: t.nodes }
      match node with
      | .directory => if !isPassedOver name then t ← seeBelow root t (p ++ [name])
      | .link target =>
          let place := (Path.ofText target).parts
          t ← seeAlong t [] place
          if root.isPrefixOf place && t.node? place == some .directory && !hasBeenSeen t place then
            t ← seeBelow root t place
      | .file _ => pure ()
  return t

/-! ## Surroundings -/

/-- The directory of the settings. -/
def settingsHome : IO Path := do
  let home := Path.ofText ((← IO.getEnv "HOME").getD "/").toList
  match ← IO.getEnv "GROUPCODE_HOME" with
  | none => return home.child ".groupcode"
  | some p => return (Path.expandHome? home [] (Path.ofText p.toList)).getD (Path.ofText p.toList)

/-- When a file was last changed. -/
def changeOf (file : Text) : IO (Option Review.Moment) := do
  let name := (← IO.currentDir) / String.ofList file
  try
    return some (.whole (← name.metadata).modified.sec)
  catch _ => return none

/-- The changes of the files in which the saved groups of a workspace are. -/
def changesIn (s : Surroundings) (t : FileTree) (workspace : Path) :
    IO (Entries Review.Moment) := do
  let mut changes : Entries Review.Moment := []
  if let .ok (_, corpus) := (Session.savedGroups s workspace |>.perform t).1 then
    for file in Text.distinct (corpus.groups.map (·.filePath)) do
      if let some moment ← changeOf file then
        changes := changes.set file moment
  return changes

/-- The files a command needs. -/
def seeFor (t : FileTree) (here : Path) (command : Command) : IO FileTree := do
  match command.workspace? with
  | none => return t
  | some workspace =>
      match t.locate (here ++ workspace) with
      | .ok place =>
          if command.looksEverywhere then seeBelow place t place
          else
            let t ← see t ⟨1, place ++ [".groupcode".toList, "codegroups.json".toList]⟩
            see t ⟨1, place ++ [".groupcode".toList, "functionalities.json".toList]⟩
      | .error _ => return t

/-! ## Writing back -/

/-- Make the files what they are in `after`. -/
def writeBack (before after : FileTree) : IO Unit := do
  for (place, node) in after.nodes do
    if before.node? place != some node then
      match node with
      | .directory => IO.FS.createDirAll (systemName place)
      | .file content => IO.FS.writeBinFile (systemName place) ⟨content.toArray⟩
      | .link _ => pure ()

/-- Run a command and return the exit code. -/
def perform (args : List Text) : IO UInt32 := do
  let here := Path.ofText (← IO.currentDir).toString.toList
  let settingsFile := (here ++ (← settingsHome)).child "config.toml"
  let mut t ← see (← see {} here) settingsFile
  for arg in args do
    -- The value of an option may be attached to it.
    for start in List.range arg.length do
      t ← see t (here ++ Path.ofText (arg.drop start))
  let now : Review.Moment := .whole (← Std.Time.Timestamp.now).toSecondsSinceUnixEpoch.val
  let unaware : Surroundings := { here, settingsFile, clock := { changed := fun _ => none, now } }
  let mut changes : Entries Review.Moment := []
  if let .ok command := Command.read t here args then
    t ← seeFor t here command
    if let some workspace := command.workspace? then
      changes ← changesIn unaware t workspace
  let s := { unaware with clock := { changed := changes.get?, now } }
  let (result, after) := (run s args).perform t
  writeBack t after
  match result with
  | .ok outcome =>
      IO.print (String.ofList outcome.output)
      return outcome.exitCode.toUInt32
  | .error failure =>
      IO.eprintln (String.ofList failure.message)
      return failure.exitCode.toUInt32

end CodeAtlas.CommandLine

def main (args : List String) : IO UInt32 :=
  CodeAtlas.CommandLine.perform (args.map String.toList)
