/-
# Group -- one annotated piece of code

A *group* is one annotation found in a source file: the functionality it names, the file, the
line of the annotation followed by the lines of code that belong to it, and a description.  Its
place in the hierarchy is derived from the name: it is computed when the group is found
(`Group.placed`) and never read from a file.
-/
import CodeAtlas.Hierarchy.Path

namespace CodeAtlas

set_option autoImplicit false

structure Group where
  functionality : Text
  filePath : Text
  lines : List Int
  description : Text := []
  place : Hierarchy.Place := Hierarchy.Place.none
  deriving DecidableEq, Repr, Inhabited

namespace Group

/-- The line of the annotation, 0 when no line is known. -/
def firstLine (g : Group) : Int := g.lines.headD 0

/-- The group with its place computed from its name. -/
def placed (g : Group) : Group := { g with place := .ofName g.functionality }

end Group

end CodeAtlas
