/-
# Proofs.Workspace.Within -- a walk stays below its root

A walk looks where a link leads only at an entry that is a link itself; what is found in a directory
behind a link is taken without a look.  That is enough.  An entry that is no link stands where its
directory does, so every directory a walk gets to (`GetsTo`) leads to a place at or below the one of
the root (`GetsTo.leadsBelow`), through whatever links, and so does every file that is listed
(`isInside_of_mem_files`).  What files elsewhere hold does not matter for a scan
(`scan_congr_of_alikeInside`), unless the ignore file is a link to one of them.
-/
import Mathlib
import CodeAtlas.Proofs.Workspace.Order
import CodeAtlas.Proofs.Workspace.Outline
import CodeAtlas.Proofs.Workspace.Scan

namespace CodeAtlas.FileTree

set_option autoImplicit false

variable {t : FileTree} {path : Path} {p : Place} {name : Text} {n : FileNode}

/-- Everything in the tree has names. -/
def WellNamed (t : FileTree) : Prop := ∀ p, t.node? p ≠ none → ∀ name ∈ p, Path.IsName name

theorem WellNamed.of_nodes (names : ∀ e ∈ t.nodes, ∀ name ∈ e.1, Path.IsName name) :
    WellNamed t := by
  intro p there
  by_cases top : p = []
  · simp [top]
  · obtain ⟨n, node⟩ := Option.ne_none_iff_exists'.mp there
    exact names _ (mem_nodes top node)

theorem find?_eq_some_iff :
    t.find? path = some n ↔ ∃ place, t.locate path = .ok place ∧ t.node? place = some n := by
  rw [find?]
  cases t.locate path with
  | error miss => simp
  | ok place => simp

/-- What is named in a directory stands in it. -/
theorem mem_names : name ∈ t.names path ↔
    ∃ here, t.locate path = .ok here ∧ t.node? here = some .directory ∧
      t.node? (here ++ [name]) ≠ none := by
  rw [names]
  cases t.locate path with
  | error miss => simp
  | ok here =>
      by_cases directory : t.node? here = some .directory
      · simp [directory, mem_namesAt]
      · simp [directory]

end CodeAtlas.FileTree

namespace CodeAtlas.Workspace

set_option autoImplicit false

open FileTree (Leads Grounded Named WellNamed)

variable {t t' : FileTree} {f : Filter} {root current dir file : Path} {above : Place} {name : Text}
  {fs : List Path} {depth : Nat}

/-! ## The directories of a walk -/

/-- **A walk gets to a directory**, whatever it leaves out. -/
inductive GetsTo (t : FileTree) (root : Path) : Path → Path → Prop
  | start {current : Path} : GetsTo t root current current
  | enter {current dir : Path} {name : Text} (before : GetsTo t root current dir)
      (member : name ∈ t.names dir) (stays : leadsOut t root (dir.child name) = .ok false)
      (directory : t.isDirectory (dir.child name) = true) :
      GetsTo t root current (dir.child name)

theorem GetsTo.trans {next : Path} (first : GetsTo t root current next)
    (second : GetsTo t root next dir) : GetsTo t root current dir := by
  induction second with
  | start => exact first
  | enter _ member stays directory ih => exact .enter ih member stays directory

/-- **Every file that is listed is an entry of a directory that the walk gets to.** -/
theorem exists_getsTo_of_mem_filesFrom
    (walked : filesFrom (leadsOut t root) t f root depth current = .ok fs) (member : file ∈ fs) :
    ∃ dir name, GetsTo t root current dir ∧ name ∈ t.names dir ∧ file = dir.child name ∧
      leadsOut t root file = .ok false ∧ t.isFile file = true := by
  induction depth generalizing current fs with
  | zero =>
      cases walked
      cases member
  | succ depth ih =>
      rw [filesFrom_succ] at walked
      obtain ⟨lists, listed, rfl⟩ := Run.map_eq_ok_iff.mp walked
      obtain ⟨l, inside, member⟩ := List.mem_flatten.mp member
      obtain ⟨name, entry, found⟩ := Run.exists_of_mem_mapM listed inside
      rcases entryFiles_cases found with rfl | ⟨stays, ⟨directory, deeper⟩ | ⟨isFile, rfl⟩⟩
      · cases member
      · obtain ⟨dir, name', gets, rest⟩ := ih deeper member
        exact ⟨dir, name', (GetsTo.enter .start entry stays directory).trans gets, rest⟩
      · obtain rfl := List.mem_singleton.mp member
        exact ⟨current, name, .start, entry, rfl, stays, isFile⟩

/-! ## Where they are -/

/-- The path leads to a place at or below this one, if it leads anywhere. -/
structure LeadsBelow (t : FileTree) (above : Place) (p : Path) : Prop where
  wellFormed : Path.WellFormed p
  below : ∀ place, t.locate p = .ok place → above <+: place

/-- What is really at or below the root is below the place of the root. -/
theorem prefix_of_isWithin {place : Place} (top : t.locate root = .ok above)
    (located : t.locate file = .ok place) (within : root.isWithin ⟨1, place⟩ = true) :
    above <+: place := by
  rw [Path.isWithin, Bool.and_eq_true, List.isPrefixOf_iff_prefix] at within
  have same : t.locate root = .ok root.parts := FileTree.locate_of_prefix located within.2
  rw [top] at same
  rw [Except.ok.inj same]
  exact within.2

/-- An entry of a directory is a link, or stands where the directory does. -/
theorem isLink_or_locate_child {here : Place} (leads : t.locate dir = .ok here)
    (directory : t.node? here = some .directory) (name_ : Path.IsName name)
    (there : t.node? (here ++ [name]) ≠ none) :
    t.isLink (dir.child name) = true ∨ t.locate (dir.child name) = .ok (here ++ [name]) := by
  have first := FileTree.leads_of_locateFrom leads
  have entry := FileTree.isEntryName_of_isName name_
  obtain ⟨n, node⟩ := Option.ne_none_iff_exists'.mp there
  by_cases link : ∃ target, n = .link target
  · obtain ⟨target, rfl⟩ := link
    have stops : t.locateFrom false FileTree.maxLinks [] (dir.parts ++ [name]) =
        .ok (here ++ [name]) :=
      FileTree.locateFrom_of_leads (FileTree.leads_concat first directory entry node (by simp))
    left
    rw [FileTree.isLink, Path.child, stops]
    simp only [node]
  · push Not at link
    right
    exact FileTree.locateFrom_of_leads
      (FileTree.leads_concat first directory entry node fun _ => link)

theorem wellFormed_child (wellFormed : Path.WellFormed dir) (name_ : Path.IsName name) :
    Path.WellFormed (dir.child name) :=
  ⟨wellFormed.root, List.forall_mem_append.mpr
    ⟨wellFormed.parts, by simpa using name_.toIsComponent⟩⟩

/-- **An entry that does not lead out leads below the root**, if its directory does. -/
theorem LeadsBelow.child (wellNamed : WellNamed t) (top : t.locate root = .ok above)
    (directory : LeadsBelow t above dir) (member : name ∈ t.names dir)
    (stays : leadsOut t root (dir.child name) = .ok false) :
    LeadsBelow t above (dir.child name) := by
  obtain ⟨here, leads, node, there⟩ := FileTree.mem_names.mp member
  have name_ : Path.IsName name := wellNamed _ there name (by simp)
  have wellFormed := wellFormed_child directory.wellFormed name_
  refine ⟨wellFormed, fun place located => ?_⟩
  rcases isLink_or_locate_child leads node name_ there with link | plain
  · rw [leadsOut, if_pos link] at stays
    obtain ⟨real, resolved, within⟩ := Run.map_eq_ok_iff.mp stays
    rw [FileTree.realPath_of_locate_eq_ok wellFormed located] at resolved
    obtain rfl := Except.ok.inj resolved
    exact prefix_of_isWithin top located (by simpa using within)
  · obtain rfl := Except.ok.inj (plain.symm.trans located)
    exact (directory.below here leads).trans (List.prefix_append _ _)

/-- **Every directory that a walk gets to leads below its root.** -/
theorem GetsTo.leadsBelow (wellNamed : WellNamed t) (top : t.locate root = .ok above)
    (gets : GetsTo t root current dir) (start : LeadsBelow t above current) :
    LeadsBelow t above dir := by
  induction gets with
  | start => exact start
  | enter _ member stays _ ih => exact ih.child wellNamed top member stays

/-- A walk that gets anywhere starts at a directory. -/
theorem GetsTo.exists_locate (gets : GetsTo t root current dir) (member : name ∈ t.names dir) :
    ∃ here, t.locate current = .ok here := by
  induction gets generalizing name with
  | start =>
      obtain ⟨here, leads, -⟩ := FileTree.mem_names.mp member
      exact ⟨here, leads⟩
  | enter _ member' _ _ ih => exact ih member'

/-- The path leads to a file at or below the place where the root leads. -/
structure IsInside (t : FileTree) (root file : Path) (above rest : Place) (content : Bytes) :
    Prop where
  wellFormed : Path.WellFormed file
  top : t.locate root = .ok above
  located : t.locate file = .ok (above ++ rest)
  node : t.node? (above ++ rest) = some (.file content)

/-- **Every file of a walk is a file at or below the root.** -/
theorem isInside_of_mem_files (wellNamed : WellNamed t) (wellFormed : Path.WellFormed root)
    (walked : files t f root = .ok fs) (member : file ∈ fs) :
    ∃ above rest content, IsInside t root file above rest content := by
  obtain ⟨dir, name, gets, entry, rfl, stays, isFile⟩ :=
    exists_getsTo_of_mem_filesFrom walked member
  obtain ⟨above, top⟩ := gets.exists_locate entry
  have directory := gets.leadsBelow wellNamed top
    ⟨wellFormed, fun place located => Except.ok.inj (top.symm.trans located) ▸ List.prefix_rfl⟩
  have below := directory.child wellNamed top entry stays
  rw [FileTree.isFile] at isFile
  split at isFile
  · rename_i content found
    obtain ⟨place, located, node⟩ := FileTree.find?_eq_some_iff.mp found
    obtain ⟨rest, rfl⟩ := below.below place located
    exact ⟨above, rest, content, below.wellFormed, top, located, node⟩
  · cases isFile

namespace IsInside

variable {rest : Place} {content : Bytes}

theorem realPath (inside : IsInside t root file above rest content) :
    t.realPath file = .ok ⟨1, above ++ rest⟩ :=
  FileTree.realPath_of_locate_eq_ok inside.wellFormed inside.located

/-- A root that is resolved leads to itself. -/
theorem eq_of_resolved (inside : IsInside t root file above rest content)
    (wellFormed : Path.WellFormed root) (resolved : t.realPath root = .ok root) :
    root = ⟨1, above⟩ :=
  Except.ok.inj (resolved.symm.trans (FileTree.realPath_of_locate_eq_ok wellFormed inside.top))

end IsInside

/-! ## What stands outside -/

/-- **The trees differ in nothing but what files outside the root hold**; the ignore file, which may
be a link to such a file, is the same. -/
structure AlikeInside (t t' : FileTree) (root : Path) : Prop where
  outline : t.outline = t'.outline
  inside : ∀ above, t.locate root = .ok above →
    ∀ rest, t.node? (above ++ rest) = t'.node? (above ++ rest)
  ignoreFile : t.read (root.child ignoreFileName) = t'.read (root.child ignoreFileName)

namespace AlikeInside

theorem locate (alike : AlikeInside t t' root) (file : Path) : t.locate file = t'.locate file := by
  rw [← FileTree.locate_outline, alike.outline, FileTree.locate_outline]

theorem files (alike : AlikeInside t t' root) (f : Filter) : files t f root = files t' f root := by
  rw [← files_outline, alike.outline, files_outline]

/-- Inside, files hold the same. -/
theorem read (alike : AlikeInside t t' root) {rest : Place} {content : Bytes}
    (inside : IsInside t root file above rest content) : t.read file = t'.read file := by
  have located' : t'.locate file = .ok (above ++ rest) := alike.locate file ▸ inside.located
  have node' : t'.node? (above ++ rest) = some (.file content) :=
    alike.inside above inside.top rest ▸ inside.node
  rw [FileTree.read_of_locate inside.located inside.node,
    FileTree.read_of_locate located' node']

end AlikeInside

/-- **A scan does not depend on what files outside the root hold.** -/
theorem scan_congr_of_alikeInside {path : Path} (wellNamed : WellNamed t)
    (wellFormed : Path.WellFormed path) (resolved : t.realPath path = .ok root)
    (alike : AlikeInside t t' root) (o : Options) : scan t path o = scan t' path o := by
  have resolved' : t'.realPath path = .ok root := by
    rw [← FileTree.realPath_outline, ← alike.outline, FileTree.realPath_outline, resolved]
  have root_ := (FileTree.wellFormed_realPath wellFormed resolved).2
  have found {f : Filter} {fs : List Path} (walked : files t f root = .ok fs) :
      fs.map (foundIn t) = fs.map (foundIn t') := by
    refine List.map_congr_left fun file member => ?_
    obtain ⟨above, rest, content, inside⟩ := isInside_of_mem_files wellNamed root_ walked member
    exact foundIn_congr (alike.read inside)
  rw [scan, scan, resolved, resolved', Run.ok_bind, Run.ok_bind,
    filter_congr alike.ignoreFile]
  refine bind_congr fun f => ?_
  cases walked : files t f root with
  | error fault =>
      rw [← alike.files, walked]
      rfl
  | ok fs =>
      have found := found walked
      rw [← alike.files, walked, Run.ok_bind, Run.ok_bind, corpusOf_eq, corpusOf_eq,
        List.flatMap_def, List.flatMap_def, found]

/-- A workspace with a link to a file inside, and one to a file outside that holds a key. -/
def linkedWorkspace (key : Text) : FileTree :=
  { nodes :=
      [(["ws".toList], .directory),
        (["ws".toList, "a.py".toList], .file (Text.encode "# @group Auth")),
        (["ws".toList, "in.py".toList], .link "../ws/a.py"),
        (["ws".toList, "out.py".toList], .link "../key.py"),
        (["key.py".toList], .file (Text.encode key))] }

def linkedRoot : Path := ⟨1, ["ws".toList]⟩

theorem wellFormed_linkedRoot : Path.WellFormed linkedRoot := .of_names (by decide) (by decide)

theorem wellNamed_linkedWorkspace (key : Text) : WellNamed (linkedWorkspace key) := by
  have names : ∀ p ∈ (linkedWorkspace []).nodes.map Prod.fst, ∀ name ∈ p, Path.IsName name := by
    decide
  have places : (linkedWorkspace key).nodes.map Prod.fst =
      (linkedWorkspace []).nodes.map Prod.fst := rfl
  exact .of_nodes fun e member => names e.1 (places ▸ List.mem_map_of_mem member)

/-- Another key makes no difference inside. -/
theorem alikeInside_linkedWorkspace (key key' : Text) :
    AlikeInside (linkedWorkspace key) (linkedWorkspace key') linkedRoot := by
  refine ⟨rfl, fun above top rest => ?_, ?_⟩
  · have root_ : (linkedWorkspace key).locate linkedRoot = .ok ["ws".toList] := by cbv
    obtain rfl := Except.ok.inj (top.symm.trans root_)
    rw [FileTree.node?_of_ne_nil _ (by simp), FileTree.node?_of_ne_nil _ (by simp)]
    simp [linkedWorkspace, List.lookup_cons]
  · cbv

end CodeAtlas.Workspace
