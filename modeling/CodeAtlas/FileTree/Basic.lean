/-
# FileTree.Basic -- files, directories and links

A file tree maps places to what stands there: a file with its bytes, a directory, or a symbolic
link with its target.  A place is the list of names from the root down; the root itself is always
a directory.

`locate` finds the place a path leads to.  It walks down name by name, `..` goes up, and a link is
replaced by its target; after `maxLinks` links the walk is given up.  In a target an empty name or
`.` stays where it is, which only a directory allows: a target with a slash at its end leads to no
file.  The walk ends because every step uses up a link or a name.

`realPath` resolves a path as far as it exists and keeps the rest as it stands; only a chain of
links that never ends has no real path.

Here a path may be of any length; `FileTree.Limits` has the paths that can be looked up.
-/
import CodeAtlas.Fault
import CodeAtlas.Path
import CodeAtlas.Text.Utf8

namespace CodeAtlas

set_option autoImplicit false

/-- The names from the root down. -/
abbrev Place := List Text

inductive FileNode where
  | file (content : Bytes)
  | directory
  | link (target : Text)
  deriving DecidableEq, Repr

/-- What stands at which place, the root left out. -/
structure FileTree where
  nodes : List (Place × FileNode) := []
  deriving DecidableEq, Repr

namespace FileTree

/-! ## Looking up -/

def node? (t : FileTree) (p : Place) : Option FileNode :=
  if p.isEmpty then some .directory else t.nodes.lookup p

/-- Why a path leads nowhere. -/
inductive Miss where
  | absent (name : Text)
  | notADirectory
  | tooManyLinks
  deriving DecidableEq, Repr

/-- How many links may be followed on the way. -/
def maxLinks : Nat := 40

/-- The place where names lead from the directory at `here`; the last name may stand for a link
itself when `follow` is false. -/
def locateFrom (t : FileTree) (follow : Bool) (links : Nat) (here : Place)
    (names : List Text) : Except Miss Place :=
  match names with
  | [] => .ok here
  | name :: rest =>
      if name == ".." then t.locateFrom follow links here.dropLast rest
      else if name.isEmpty || name == "." then t.locateFrom follow links here rest
      else
        match t.node? (here ++ [name]) with
        | none => .error (.absent name)
        | some .directory => t.locateFrom follow links (here ++ [name]) rest
        | some (.file _) => if rest.isEmpty then .ok (here ++ [name]) else .error .notADirectory
        | some (.link target) =>
            if rest.isEmpty && !follow then .ok (here ++ [name])
            else
              match links with
              | 0 => .error .tooManyLinks
              | links + 1 =>
                  t.locateFrom follow links (if (Path.ofText target).isAbsolute then [] else here)
                    (Text.splitOn '/' target ++ rest)
termination_by (links, names.length)

/-- The place an absolute path leads to. -/
def locate (t : FileTree) (p : Path) : Except Miss Place := t.locateFrom true maxLinks [] p.parts

/-- What an absolute path leads to. -/
def find? (t : FileTree) (p : Path) : Option FileNode :=
  match t.locate p with
  | .ok place => t.node? place
  | .error _ => none

def isDirectory (t : FileTree) (p : Path) : Bool := t.find? p == some .directory

def isFile (t : FileTree) (p : Path) : Bool :=
  match t.find? p with
  | some (.file _) => true
  | _ => false

def holds (t : FileTree) (p : Path) : Bool := (t.find? p).isSome

/-- Does the path itself stand for a link? -/
def isLink (t : FileTree) (p : Path) : Bool :=
  match t.locateFrom false maxLinks [] p.parts with
  | .ok place =>
      match t.node? place with
      | some (.link _) => true
      | _ => false
  | .error _ => false

/-- The names in the directory at a place, in ascending order. -/
def namesAt (t : FileTree) (p : Place) : List Text :=
  Text.sort (Text.distinct (t.nodes.filterMap fun n =>
    if n.1.dropLast == p then n.1.getLast? else none))

/-- The names in the directory a path leads to; none if it leads to no directory. -/
def names (t : FileTree) (p : Path) : List Text :=
  match t.locate p with
  | .ok place => if t.node? place == some .directory then t.namesAt place else []
  | .error _ => []

/-! ## Real places -/

/-- How far links could be resolved. -/
structure Resolution where
  place : Place
  /-- The names that are left, when a link was met that leads back to itself. -/
  left : Option (List Text) := none
  deriving DecidableEq, Repr

/-- Resolve names below a real place.  A link in `active` is being resolved already; `depth` bounds
the links within links. -/
def resolveFrom (t : FileTree) (depth : Nat) (active : List Place) (here : Place)
    (names : List Text) : Resolution :=
  match names with
  | [] => { place := here }
  | name :: rest =>
      let next := here ++ [name]
      if name == ".." then t.resolveFrom depth active here.dropLast rest
      else
        match t.node? next with
        | some (.link target) =>
            if active.contains next then { place := next, left := some rest }
            else match depth with
            | 0 => { place := next, left := some rest }
            | depth' + 1 =>
                let path := Path.ofText target
                let start := if path.isAbsolute then [] else here
                match t.resolveFrom depth' (next :: active) start path.parts with
                | ⟨place, none⟩ => t.resolveFrom (depth' + 1) active place rest
                | ⟨place, some left⟩ => { place, left := some (left ++ rest) }
        | _ => t.resolveFrom depth active next rest
termination_by (depth, names.length)

/-- The number of links in the tree; no more of them are active at a time. -/
def linkCount (t : FileTree) : Nat :=
  t.nodes.countP fun n =>
    match n.2 with
    | .link _ => true
    | _ => false

/-- The path without links, as far as it exists.  Behind a link that leads back to itself the names
are taken as they stand. -/
def resolved (t : FileTree) (p : Path) : Path :=
  let r := t.resolveFrom t.linkCount [] [] p.parts
  let path : Path := ⟨1, r.place ++ r.left.getD []⟩
  if r.left.isSome then path.normalize else path

/-- The real path; it is a fault if it does not end either. -/
def realPath (t : FileTree) (p : Path) : Except Fault Path :=
  match t.locate (t.resolved p) with
  | .error .tooManyLinks => .error .linkLoop
  | _ => .ok (t.resolved p)

end FileTree

end CodeAtlas
