/-
# FileTree.Limits -- paths that are too long

A system looks up no path of more bytes than it has room for, and no name of more bytes than a
directory takes.  Nothing depends on how many these are, so they are parameters; by default they are
the usual ones.

A name that is too long is found out where it is looked for, if the way leads so far; a name that is
there is not too long.  The search for a real path looks up every place on its way and takes what
cannot be looked up for no link, so it sees no more of the tree than the places whose paths fit
(`within`).
-/
import CodeAtlas.FileTree.Basic

namespace CodeAtlas.FileTree

set_option autoImplicit false

/-- How long paths and names may be, in bytes. -/
structure Limits where
  path : Nat := 4095
  name : Nat := 255
  deriving DecidableEq, Repr

namespace Limits

def allowsPath (l : Limits) (p : Path) : Bool := (Text.encode p.toText).length ≤ l.path

def allowsName (l : Limits) (name : Text) : Bool := (Text.encode name).length ≤ l.name

end Limits

/-- Can the system look the path up?  It can also if it finds nothing there. -/
def canLookUp (t : FileTree) (l : Limits) (follow : Bool) (p : Path) : Bool :=
  l.allowsPath p &&
    match t.locateFrom follow maxLinks [] p.parts with
    | .error (.absent name) => l.allowsName name
    | _ => true

/-- Look a path up, for nothing but the fault that this may be. -/
def lookUp (t : FileTree) (l : Limits) (follow : Bool) (p : Path) : Except Fault Unit :=
  if t.canLookUp l follow p then .ok () else .error .nameTooLong

/-- What is at the places whose paths fit. -/
def within (t : FileTree) (l : Limits) : FileTree :=
  { nodes := t.nodes.filter fun n => l.allowsPath ⟨1, n.1⟩ }

/-- The real path of a path that may be too long.  One that is too long itself is not looked up, so
that it is never found not to end. -/
def realPathWithin (t : FileTree) (l : Limits) (p : Path) : Except Fault Path :=
  let real := (t.within l).resolved p
  if l.allowsPath real then
    match t.locate real with
    | .error .tooManyLinks => .error .linkLoop
    | _ => .ok real
  else .ok real

end CodeAtlas.FileTree
