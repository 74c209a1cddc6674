/-
# FileTree.Change -- reading, writing and removing files

Reading and writing follow links; removing does not.  A file is written where its path leads, or
made there when the directory exists.  `makeDirectories` makes a directory and all those above it
that are missing.

Every operation that fails leaves the tree as it is, and the fault says what stood in the way.  A
`Script` strings operations together: it stops at the first fault and keeps what was done before.
-/
import CodeAtlas.FileTree.Basic

namespace CodeAtlas.FileTree

set_option autoImplicit false

/-! ## Single places -/

/-- Put a node at a place, in the stead of what is there. -/
def put (t : FileTree) (p : Place) (n : FileNode) : FileTree :=
  if t.nodes.any (·.1 == p) then
    { nodes := t.nodes.map fun old => if old.1 == p then (p, n) else old }
  else { nodes := t.nodes ++ [(p, n)] }

/-- Take away what stands at a place. -/
def drop (t : FileTree) (p : Place) : FileTree := { nodes := t.nodes.filter (·.1 != p) }

/-- The fault that a path leads nowhere. -/
def Miss.fault : Miss → Fault
  | .absent _ => .notFound
  | .notADirectory => .notADirectory
  | .tooManyLinks => .tooManyLinks

/-! ## Reading -/

/-- The bytes of a file. -/
def read (t : FileTree) (p : Path) : Except Fault Bytes :=
  match t.locate p with
  | .error miss => .error miss.fault
  | .ok place =>
      match t.node? place with
      | some (.file content) => .ok content
      | _ => .error .isADirectory

/-- The text of a file, its line ends as line feeds. -/
def readText (t : FileTree) (p : Path) : Except Fault Text := do
  match Text.decode? (← t.read p) with
  | some text => return Text.withLineFeeds text
  | none => throw .undecodable

/-! ## Writing -/

/-- Where a file is to be written: the place the path leads to, or the free place it names in a
directory.  `links` bounds the links at the end of the path. -/
def placeToWrite (t : FileTree) (links : Nat) (here : Place) (names : List Text) :
    Except Fault Place :=
  match t.locateFrom false maxLinks here names with
  | .ok place =>
      match t.node? place with
      | some (.link target) =>
          match links with
          | 0 => .error .tooManyLinks
          | links + 1 =>
              let path := Path.ofText target
              t.placeToWrite links (if path.isAbsolute then [] else place.dropLast) path.parts
      | some (.file _) => .ok place
      | _ => .error .isADirectory
  | .error (.absent _) =>
      match t.locateFrom true maxLinks here names.dropLast, names.getLast? with
      | .ok directory, some name =>
          if name == ".." then .error .isADirectory
          else if t.node? directory == some .directory then .ok (directory ++ [name])
          else .error .notADirectory
      | .error miss, _ => .error miss.fault
      | _, none => .error .isADirectory
  | .error miss => .error miss.fault

/-- The tree with a file written. -/
def write (t : FileTree) (p : Path) (content : Bytes) : Except Fault FileTree :=
  (t.placeToWrite maxLinks [] p.parts).map fun place => t.put place (.file content)

def writeText (t : FileTree) (p : Path) (text : Text) : Except Fault FileTree :=
  t.write p (Text.encode text)

/-- The directory at the end of a path, made if nothing is there. -/
def makeDirectory (t : FileTree) (p : Path) : Except Fault FileTree :=
  match t.locateFrom false maxLinks [] p.parts with
  | .ok _ => if t.isDirectory p then .ok t else .error .inTheWay
  | .error (.absent _) =>
      match t.locate ⟨p.root, p.parts.dropLast⟩ with
      | .ok above =>
          if t.node? above == some .directory then .ok (t.put (above ++ [p.name]) .directory)
          else .error .notADirectory
      | .error miss => .error miss.fault
  | .error miss => .error miss.fault

/-- The directory at the end of a path with all those above it, as far as they are missing. -/
def makeDirectories (t : FileTree) (p : Path) : Except Fault FileTree :=
  (List.range p.parts.length).foldlM
    (fun t n =>
      let above : Path := ⟨p.root, p.parts.take (n + 1)⟩
      if t.isDirectory above then .ok t else t.makeDirectory above) t

/-! ## Links and removal -/

/-- The tree with a link made at the end of a path where nothing is. -/
def makeLink (t : FileTree) (p : Path) (target : Text) : Except Fault FileTree :=
  match t.locate ⟨p.root, p.parts.dropLast⟩ with
  | .error miss => .error miss.fault
  | .ok above =>
      if (t.node? (above ++ [p.name])).isSome then .error .inTheWay
      else .ok (t.put (above ++ [p.name]) (.link target))

/-- The tree without the file or link at the end of a path. -/
def remove (t : FileTree) (p : Path) : Except Fault FileTree :=
  match t.locateFrom false maxLinks [] p.parts with
  | .error miss => .error miss.fault
  | .ok place =>
      if t.node? place == some .directory then .error .isADirectory else .ok (t.drop place)

/-! ## Scripts -/

/-- Operations on a tree, one after the other; the tree changes even if one of them fails. -/
abbrev Script (α : Type) := ExceptT Fault (StateM FileTree) α

namespace Script

variable {α : Type}

/-- A question about the tree. -/
def ask (question : FileTree → Except Fault α) : Script α := do
  liftExcept (question (← get))
where
  liftExcept : Except Fault α → Script α
    | .ok a => pure a
    | .error f => throw f

/-- A change of the tree. -/
def change (operation : FileTree → Except Fault FileTree) : Script Unit := do
  set (← ask operation)

/-- The answer of a script, and the tree as it is afterwards. -/
def perform (script : Script α) (t : FileTree) : Except Fault α × FileTree :=
  (ExceptT.run script).run t

end Script

end CodeAtlas.FileTree
