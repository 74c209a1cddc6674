/-
# Hierarchy.Forest -- groups arranged by their paths

A forest is a list of trees, siblings with different names in order of first appearance.
`insert` walks down the segments of a group, makes the nodes that are missing, and attaches the
group to the node of its last segment only; a group without segments is left out.

`preorder` is the recursive walk: a node, then the walks of its children.  `walk` visits the
same nodes with an explicit stack of trees still to be visited, the top first; it ends because
the total size of the stack shrinks with every visit.

A path may have any number of segments: how many calls within calls a machine has room for is left
out, of the walks of a tree as of the walk of a workspace.
-/
import CodeAtlas.Group

namespace CodeAtlas.Hierarchy

set_option autoImplicit false

/-- One path of the hierarchy: its last segment, the whole path, its level, the groups that
stand exactly here, and the paths one level below. -/
structure Node where
  name : Text
  fullPath : Text
  level : Nat
  groups : List Group := []
  children : List Node := []

abbrev Forest := List Node

namespace Forest

/-- Change the tree of that name by `f`, or add `f fresh` at the end. -/
def alter (fresh : Node) (f : Node → Node) : Forest → Forest
  | [] => [f fresh]
  | n :: rest => if n.name == fresh.name then f n :: rest else n :: alter fresh f rest

/-- Attach `g` below the path `above` of level `depth`, along the remaining segments. -/
def insertAt (g : Group) (above : Text) (depth : Nat) : List Text → Forest → Forest
  | [], forest => forest
  | s :: rest, forest =>
      let path := if above.isEmpty then s else above ++ separator ++ s
      alter { name := s, fullPath := path, level := depth + 1 }
        (fun n =>
          if rest.isEmpty then { n with groups := n.groups ++ [g] }
          else { n with children := insertAt g path (depth + 1) rest n.children })
        forest

def insert (forest : Forest) (g : Group) : Forest :=
  insertAt g.placed [] 0 (segments g.functionality) forest

def ofGroups (groups : List Group) : Forest := groups.foldl insert []

/-! ## Walking -/

mutual

def preorderNode : Node → List Node
  | n@⟨_, _, _, _, children⟩ => n :: preorder children

/-- A node, then the walks of its children. -/
def preorder : List Node → List Node
  | [] => []
  | n :: rest => preorderNode n ++ preorder rest

end

theorem sizeOf_append {α : Type} [SizeOf α] (a b : List α) :
    sizeOf (a ++ b) + 1 = sizeOf a + sizeOf b := by
  induction a with
  | nil => simp; omega
  | cons x a ih => simp only [List.cons_append, List.cons.sizeOf_spec] at *; omega

/-- The walk with an explicit stack, the next tree at its head. -/
def walk (stack : List Node) : List Node :=
  match stack with
  | [] => []
  | n :: rest => n :: walk (n.children ++ rest)
termination_by sizeOf stack
decreasing_by
  have := sizeOf_append n.children rest
  cases n
  simp only [List.cons.sizeOf_spec, Node.mk.sizeOf_spec] at *
  omega

/-! ## Counting -/

mutual

/-- The groups at or below a node. -/
def countNode : Node → Nat
  | ⟨_, _, _, groups, children⟩ => groups.length + count children

def count : List Node → Nat
  | [] => 0
  | n :: rest => countNode n + count rest

end

end Forest

/-! ## Levels -/

/-- The deepest level any group stands at, 0 when there is none. -/
def depth (groups : List Group) : Nat :=
  groups.foldl (fun d g => max d (segments g.functionality).length) 0

/-- The functionalities at one level, each once. -/
def atLevel (groups : List Group) (level : Int) : List Text :=
  Text.distinct
    ((groups.filter fun g => ((segments g.functionality).length : Int) == level).map
      (·.functionality))

end CodeAtlas.Hierarchy
