/-
# Path -- file paths without a file system

A path is a root -- none, `/`, or `//`, which some systems keep apart -- and its components.
Reading drops empty components and `.`, and takes three or more slashes in front for one; `..` is
kept, because what it means may depend on links.  Writing joins the components by slashes; the
relative path without components is `.`.

`normalize` resolves `..` against the component before it, by the text alone; at the root there
is nothing above.  `relativeTo` climbs from the start to the longest common initial part and
descends from there; both paths are made absolute and normalized before.
-/
import CodeAtlas.Text.Basic

namespace CodeAtlas

set_option autoImplicit false

structure Path where
  /-- The slashes in front: none, one or two. -/
  root : Nat
  parts : List Text
  deriving DecidableEq, Repr, Inhabited

namespace Path

/-! ## Reading and writing -/

def components (t : Text) : List Text :=
  (Text.splitOn '/' t).filter fun p => !p.isEmpty && p != "."

def rootOf (t : Text) : Nat :=
  let slashes := (t.takeWhile (· == '/')).length
  if slashes = 2 then 2 else min slashes 1

def ofText (t : Text) : Path := ⟨rootOf t, components t⟩

def toText (p : Path) : Text :=
  let t := List.replicate p.root '/' ++ Text.join "/" p.parts
  if t.isEmpty then "." else t

def isAbsolute (p : Path) : Bool := p.root != 0

/-- The last component; empty for a root and for `.`. -/
def name (p : Path) : Text := p.parts.getLastD []

/-! ## Joining and normalizing -/

/-- `q` as seen from `p`. -/
def append (p q : Path) : Path := if q.isAbsolute then q else ⟨p.root, p.parts ++ q.parts⟩

instance : Append Path := ⟨append⟩

/-- The entry of that name in the directory. -/
def child (p : Path) (name : Text) : Path := ⟨p.root, p.parts ++ [name]⟩

/-- One more component after `above`, which is given in reverse. -/
def climb (absolute : Bool) (above : List Text) (part : Text) : List Text :=
  if part == ".." then
    match above with
    | [] => if absolute then [] else [part]
    | last :: rest => if last == ".." then part :: above else rest
  else part :: above

/-- The path without `..` behind another component. -/
def normalize (p : Path) : Path :=
  ⟨p.root, (p.parts.foldl (climb p.isAbsolute) []).reverse⟩

/-- The path from the root, as seen from the directory `here`. -/
def absolute (here p : Path) : Path := (here ++ p).normalize

/-- The longest common initial part of two lists. -/
def commonStart : List Text → List Text → List Text
  | a :: l, b :: r => if a == b then a :: commonStart l r else []
  | _, _ => []

/-- The way from `start` to `p`, both seen from `here`. -/
def relativeTo (here start p : Path) : Path :=
  let source := (absolute here start).parts
  let target := (absolute here p).parts
  let common := (commonStart source target).length
  ⟨0, List.replicate (source.length - common) "..".toList ++ target.drop common⟩

/-- Is `p` at or below `above`, component by component? -/
def isWithin (above p : Path) : Bool := above.root == p.root && above.parts.isPrefixOf p.parts

/-- The components of `p` below `above`. -/
def below (above p : Path) : Path := ⟨0, p.parts.drop above.parts.length⟩

/-! ## Home directories -/

/-- A path whose first component begins with `~` starts at a home directory: one's own when the
component is `~` alone, another user's otherwise.  `none` when that user is not known. -/
def expandHome? (home : Path) (users : List (Text × Path)) (p : Path) : Option Path :=
  if p.isAbsolute then some p
  else
    match p.parts with
    | ('~' :: user) :: rest =>
        let start? := if user.isEmpty then some home else users.lookup user
        start?.map fun start => ⟨start.root, start.parts ++ rest⟩
    | _ => some p

end Path

end CodeAtlas
