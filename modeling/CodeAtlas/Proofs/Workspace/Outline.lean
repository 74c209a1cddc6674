/-
# Proofs.Workspace.Outline -- what a walk depends on

The *outline* of a tree is the tree with all its files emptied.  Where paths lead, which of them are
links, their real places and the names in directories are the same in a tree and in its outline; so
a walk lists the same files (`files_outline`).
-/
import CodeAtlas.Proofs.FileTree.Resolve
import CodeAtlas.Proofs.Workspace.Walk

namespace CodeAtlas.FileTree

set_option autoImplicit false

open Workspace (emptied)

variable {t : FileTree} {follow : Bool} {links depth : Nat} {active : List Place} {here p : Place}
  {names : List Text} {path : Path}

/-- The tree without the contents of its files. -/
def outline (t : FileTree) : FileTree := { nodes := t.nodes.map fun n => (n.1, emptied n.2) }

theorem node?_outline (t : FileTree) (p : Place) :
    t.outline.node? p = (t.node? p).map emptied := by
  by_cases top : p = []
  · subst top
    rfl
  · rw [node?_of_ne_nil _ top, node?_of_ne_nil _ top, outline]
    induction t.nodes with
    | nil => rfl
    | cons n nodes ih =>
        rw [List.map_cons, List.lookup_cons, List.lookup_cons]
        split
        · rfl
        · exact ih

theorem locateFrom_outline :
    t.outline.locateFrom follow links here names = t.locateFrom follow links here names := by
  induction links, here, names using locateFrom.induct t follow with
  | case1 links here => simp only [locateFrom]
  | case2 links here name rest dots ih => simp only [locateFrom, dots, if_true, ih]
  | case3 links here name rest dots nowhere ih =>
      simp only [locateFrom, dots, nowhere, Bool.false_eq_true, if_true, if_false, ih]
  | case4 links here name rest dots solid node =>
      simp only [locateFrom, dots, solid, node?_outline, node, Option.map_none, Bool.false_eq_true,
        if_false]
  | case5 links here name rest dots solid node ih =>
      simp only [locateFrom, dots, solid, node?_outline, node, Option.map_some, emptied,
        Bool.false_eq_true, if_false, ih]
  | case6 links here name rest dots solid content node last =>
      simp only [locateFrom, dots, solid, node?_outline, node, Option.map_some, emptied,
        Bool.false_eq_true, if_false]
  | case7 links here name rest dots solid content node more =>
      simp only [locateFrom, dots, solid, node?_outline, node, Option.map_some, emptied,
        Bool.false_eq_true, if_false]
  | case8 links here name rest dots solid target node stop =>
      simp only [locateFrom, dots, solid, node?_outline, node, Option.map_some, emptied,
        Bool.false_eq_true, if_false, stop, if_true]
  | case9 here name rest dots solid target node go =>
      simp only [locateFrom, dots, solid, node?_outline, node, Option.map_some, emptied,
        Bool.false_eq_true, if_false, go]
  | case10 here name rest dots solid target node go links ih =>
      simp only [locateFrom, dots, solid, node?_outline, node, Option.map_some, emptied,
        Bool.false_eq_true, if_false, go]
      exact ih

theorem locate_outline : t.outline.locate path = t.locate path := locateFrom_outline

theorem find?_outline : t.outline.find? path = (t.find? path).map emptied := by
  rw [find?, find?, locate_outline]
  cases t.locate path with
  | error miss => rfl
  | ok place => exact node?_outline t place

theorem isDirectory_outline : t.outline.isDirectory path = t.isDirectory path := by
  rw [isDirectory, isDirectory, find?_outline]
  rcases t.find? path with _ | (_ | _ | _)
  all_goals rfl

theorem isFile_outline : t.outline.isFile path = t.isFile path := by
  rw [isFile, isFile, find?_outline]
  rcases t.find? path with _ | (_ | _ | _)
  all_goals rfl

theorem isLink_outline : t.outline.isLink path = t.isLink path := by
  rw [isLink, isLink, locateFrom_outline]
  cases t.locateFrom false maxLinks [] path.parts with
  | error miss => rfl
  | ok place =>
      simp only [node?_outline]
      rcases t.node? place with _ | (_ | _ | _)
      all_goals rfl

theorem names_outline : t.outline.names path = t.names path := by
  have same (p : Place) : t.outline.namesAt p = t.namesAt p := by
    rw [namesAt, namesAt, outline, List.filterMap_map]
    rfl
  rw [names, names, locate_outline]
  cases t.locate path with
  | error miss => rfl
  | ok place =>
      simp only [node?_outline, same]
      rcases t.node? place with _ | (_ | _ | _)
      all_goals rfl

theorem linkCount_outline (t : FileTree) : t.outline.linkCount = t.linkCount := by
  rw [linkCount, linkCount, outline, List.countP_map]
  refine congrArg (List.countP · t.nodes) (funext fun n => ?_)
  rcases n with ⟨p, _ | _ | _⟩
  all_goals rfl

theorem node?_outline_eq_link_iff {target : Text} :
    t.outline.node? p = some (.link target) ↔ t.node? p = some (.link target) := by
  rw [node?_outline]
  rcases t.node? p with _ | (_ | _ | _)
  all_goals simp [emptied]

theorem resolved_outline : t.outline.resolved path = t.resolved path := by
  rw [resolved, resolved, linkCount_outline,
    resolveFrom_congr fun _ _ => node?_outline_eq_link_iff.symm]

theorem realPath_outline : t.outline.realPath path = t.realPath path := by
  rw [realPath, realPath, resolved_outline, locate_outline]

end CodeAtlas.FileTree

namespace CodeAtlas.Workspace

set_option autoImplicit false

variable {t t' : FileTree} {f : Filter} {root current item : Path} {depth : Nat}

theorem leadsOut_outline : leadsOut t.outline root item = leadsOut t root item := by
  rw [leadsOut, leadsOut, FileTree.isLink_outline, FileTree.realPath_outline]

theorem filesFrom_outline {passes : Path → Except Fault Bool} :
    filesFrom passes t.outline f root depth current = filesFrom passes t f root depth current := by
  induction depth generalizing current with
  | zero => rfl
  | succ depth ih =>
      have entries : entryFiles passes t.outline f root (filesFrom passes t.outline f root depth)
          current = entryFiles passes t f root (filesFrom passes t f root depth) current := by
        funext name
        simp only [entryFiles, FileTree.isDirectory_outline, FileTree.isFile_outline, ih]
      rw [filesFrom_succ, filesFrom_succ, FileTree.names_outline, entries]

/-- **A walk depends on the outline only.** -/
theorem files_outline : files t.outline f root = files t f root := by
  have limit : depthLimit t.outline = depthLimit t := by
    rw [depthLimit, depthLimit, FileTree.outline, List.length_map]
  have passes : leadsOut t.outline root = leadsOut t root := funext fun _ => leadsOut_outline
  rw [files, files, limit, passes, filesFrom_outline]

end CodeAtlas.Workspace
