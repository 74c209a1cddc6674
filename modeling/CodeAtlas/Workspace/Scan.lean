/-
# Workspace.Scan -- the corpus of a workspace

Scanning a workspace reads every file of its walk whose type is supported and puts the groups found
under that type.  Bytes that are no text are left out of a file.  The rules about what to leave out
are a few default ones and, if asked for, those of the ignore file at the root.

No group is taken twice: one with the name, the path and the lines of an earlier one is dropped.

A path may have any length here; `Workspace.Limits` scans where paths may be too long.
-/
import CodeAtlas.Corpus
import CodeAtlas.FileTree.Change
import CodeAtlas.Language.Packaged
import CodeAtlas.Scan.Scanner
import CodeAtlas.Workspace.Walk

namespace CodeAtlas.Workspace

set_option autoImplicit false

/-- How to scan a workspace. -/
structure Options where
  respectIgnoreFile : Bool := true
  extraSkipped : List Text := []

/-- What keeps a value out of a set: a list and a table cannot be looked up there, nor can a moment
with an offset of a day or more. -/
def hashFault? : Value → Option Fault
  | .list _ => some .wrongKind
  | .table _ => some .wrongKind
  | .moment m => if m.isNear then none else some .farOffset
  | _ => none

/-- The directories in a set of these values, of which only texts are names of directories. -/
def directoriesIn (vs : List Value) : Except Fault (List Text) :=
  match vs.findSome? hashFault? with
  | some f => .error f
  | none => .ok (vs.filterMap Value.text?)

/-- The options in the settings for scans. -/
def Options.ofEntries (e : Entries Value) : Except Fault Options := do
  let extraSkipped ← directoriesIn (((e.get? "extra_skip_dirs").bind Value.list?).getD [])
  return { respectIgnoreFile := match e.get? "respect_gitignore" with
             | some (.bool b) => b
             | _ => true
           extraSkipped }

/-! ## Files -/

/-- The scanner for the languages that are known without a file. -/
def scanner : Scan.Scanner := { table := Language.packaged }

/-- The groups of the file at an absolute path, which is shown as `filePath`; a file that cannot
be read has none. -/
def scanFile (t : FileTree) (path : Path) (filePath : Text) (languageId : Option Text) :
    Except Fault (List Group) :=
  match t.read path with
  | .ok content =>
      (scanner.scan (Text.withLineFeeds (Text.decodeLossy content)) filePath languageId).1
  | .error _ => .ok []

/-! ## Rules -/

/-- Files that are left out of every scan. -/
def defaultRules : List Text := ["*.min.js", "*.min.css", "*.map", ".DS_Store"]

def ignoreFileName : Text := ".gitignore"

/-- The lines of the ignore file; an ignore file that cannot be opened has none. -/
def ignoreLines (t : FileTree) (root : Path) : Except Fault (List Text) :=
  match t.readText (root.child ignoreFileName) with
  | .ok text => .ok (Text.lines text)
  | .error .undecodable => .error .undecodable
  | .error _ => .ok []

def filter (t : FileTree) (root : Path) (o : Options) : Except Fault Filter := do
  let own ← if o.respectIgnoreFile then ignoreLines t root else pure []
  return { skipped := skippedDirectories ++ o.extraSkipped
           rules := ← readRules (defaultRules ++ own) }

/-! ## The corpus -/

/-- Are two groups found twice? -/
def sameFinding (g h : Group) : Bool :=
  g.functionality == h.functionality && g.filePath == h.filePath && g.lines == h.lines

/-- The groups that no earlier group repeats. -/
def distinctFindings (found : List (Text × Group)) : List (Text × Group) :=
  found.foldl
    (fun seen f => if seen.any fun s => sameFinding s.2 f.2 then seen else seen ++ [f]) []

/-- The groups of one file of the walk under its type. -/
def findings (t : FileTree) (file : Path) : Except Fault (List (Text × Group)) :=
  let fileType := Language.fileType file.toText
  if Language.isSupported fileType then
    (scanFile t file file.toText none).map fun groups => groups.map (fileType, ·)
  else .ok []

/-- The corpus of the files of a walk. -/
def corpusOf (t : FileTree) (walk : List Path) : Except Fault Corpus := do
  let found ← walk.mapM (findings t)
  return (distinctFindings found.flatten).foldl (fun c f => Entries.push c f.1 f.2) []

/-- The corpus of the workspace at an absolute path. -/
def scan (t : FileTree) (path : Path) (o : Options) : Except Fault Corpus := do
  let root ← t.realPath path
  corpusOf t (← files t (← filter t root o) root)

end CodeAtlas.Workspace
