/-
# Proofs.Workspace.Origin -- how often an annotation is counted

An annotation is told by its *origin*: the real path of its file, and its lines (`originOf`).  A link
that stays in the workspace is followed, so a walk can list one file under several paths, and what
is found in it is counted under each of them.  Dropping what is found twice does not help: it goes
by the paths as they are written, and no walk lists a path twice.

So every annotation is counted once exactly if files of the walk that really are one file have no
lines in common (`takenOnce_iff`), as in a workspace without links (`takenOnce_of_regular`).
-/
import CodeAtlas.Proofs.Workspace.Sources
import CodeAtlas.Proofs.Workspace.Within

namespace CodeAtlas.Workspace

set_option autoImplicit false

open FileTree (Regular WellNamed)

variable {t : FileTree} {f : Filter} {o : Options} {root path file : Path} {fs : List Path}

/-! ## Origins -/

/-- **Where a group comes from**: the real path of its file, and its lines. -/
def originOf (t : FileTree) (g : Group) : Except Fault Path × List Int :=
  (t.realPath (Path.ofText g.filePath), g.lines)

/-- **No two groups have the same origin.** -/
def TakenOnce (t : FileTree) (c : Corpus) : Prop := (c.groups.map (originOf t)).Nodup

/-- The two paths stand for one file, and groups on the same lines are found under both. -/
def SharesLines (t : FileTree) (p q : Path) : Prop :=
  t.realPath p = t.realPath q ∧ ∃ g ∈ groupsIn t p, ∃ h ∈ groupsIn t q, g.lines = h.lines

theorem originOf_of_mem_groupsIn (wellFormed : Path.WellFormed file) {g : Group}
    (member : g ∈ groupsIn t file) : originOf t g = (t.realPath file, g.lines) := by
  obtain ⟨gs, scanned, -, found⟩ := exists_scanFile t file file.toText
  obtain rfl := Except.ok.inj ((scanFile_eq t file).symm.trans scanned)
  obtain ⟨content, -, is⟩ := found g member
  rw [originOf, is.filePath, Path.ofText_toText wellFormed]

theorem nodup_lines_groupsIn (t : FileTree) (file : Path) :
    ((groupsIn t file).map (·.lines)).Nodup := by
  obtain ⟨gs, scanned, nodup, -⟩ := exists_scanFile t file file.toText
  obtain rfl := Except.ok.inj ((scanFile_eq t file).symm.trans scanned)
  exact nodup

/-- The groups of one file have different origins. -/
theorem map_originOf_groupsIn (wellFormed : Path.WellFormed file) :
    (groupsIn t file).map (originOf t) =
      (groupsIn t file).map fun g => (t.realPath file, g.lines) :=
  List.map_congr_left fun _ member => originOf_of_mem_groupsIn wellFormed member

/-! ## The corpus of a walk -/

/-- The groups of a corpus are those of the source files, in some order. -/
theorem groups_gathered_perm (t : FileTree) (walk : List Path) :
    (gathered (walk.flatMap (foundIn t))).groups.Perm ((sourcesOf walk).flatMap (groupsIn t)) := by
  rw [Corpus.groups_eq_map_tagged]
  refine ((gathered_spec _).2.map Prod.snd).trans (.of_eq ?_)
  rw [flatMap_foundIn, List.map_flatMap]
  simp [Function.comp_def]

/-- **What is found in a walk is taken once if its source files share no lines.** -/
theorem takenOnce_gathered_iff (wellFormed : ∀ file ∈ fs, Path.WellFormed file) :
    TakenOnce t (gathered (fs.flatMap (foundIn t))) ↔
      (sourcesOf fs).Pairwise fun p q => ¬ SharesLines t p q := by
  have wellFormed' : ∀ file ∈ sourcesOf fs, Path.WellFormed file := fun file member =>
    wellFormed file (List.mem_of_mem_filter member)
  rw [TakenOnce, ((groups_gathered_perm t fs).map _).nodup_iff, List.map_flatMap,
    List.nodup_flatMap]
  have each : ∀ file ∈ sourcesOf fs, ((groupsIn t file).map (originOf t)).Nodup := by
    intro file member
    rw [map_originOf_groupsIn (wellFormed' file member)]
    refine List.Nodup.of_map Prod.snd ?_
    rw [List.map_map]
    exact nodup_lines_groupsIn t file
  rw [and_iff_right each]
  refine List.Pairwise.iff_of_mem fun {p q} pIn qIn => ?_
  change List.Disjoint ((groupsIn t p).map (originOf t)) ((groupsIn t q).map (originOf t)) ↔ _
  rw [map_originOf_groupsIn (wellFormed' p pIn), map_originOf_groupsIn (wellFormed' q qIn)]
  constructor
  · rintro apart ⟨same, g, inside, h, inside', lines⟩
    refine apart (List.mem_map_of_mem inside) ?_
    rw [same, lines]
    exact List.mem_map_of_mem inside'
  · rintro free origin inside inside'
    obtain ⟨g, member, rfl⟩ := List.mem_map.mp inside
    obtain ⟨h, member', same⟩ := List.mem_map.mp inside'
    obtain ⟨same, lines⟩ := Prod.mk.inj same
    exact free ⟨same.symm, g, member, h, member', lines.symm⟩

/-- A scan gathers what is found in its walk, and drops nothing. -/
theorem scan_of_walked (wellNamed : WellNamed t) (wellFormed : Path.WellFormed path)
    (walked : Walked t path o root f fs) :
    scan t path o = .ok (gathered (fs.flatMap (foundIn t))) ∧
      ∀ file ∈ fs, Path.WellFormed file := by
  have root_ := (FileTree.wellFormed_realPath wellFormed walked.real).2
  have files_ : ∀ file ∈ fs, Path.WellFormed file := fun file member => by
    obtain ⟨_, _, _, inside⟩ := isInside_of_mem_files wellNamed root_ walked.listed member
    exact inside.wellFormed
  refine ⟨?_, files_⟩
  rw [scan_eq_ok_iff]
  exact ⟨root, f, fs, walked, by rw [distinctFindings_flatMap (nodup_files walked.listed) files_]⟩

/-! ## Workspaces without links -/

/-- A file of a workspace without links is where its path says. -/
theorem Visits.realPath {root : Place} {names : List Text} (regular : Regular t root)
    (visits : Visits t f root [] names) :
    t.realPath ⟨1, root ++ names⟩ = .ok ⟨1, root ++ names⟩ := by
  obtain ⟨d, name, content, whole, named, ground, entry, node⟩ := visits.exists_entry regular
  rw [whole]
  exact FileTree.realPath_concat named ground entry node (by rintro target ⟨⟩)

/-- In a workspace without links every annotation is counted once. -/
theorem takenOnce_of_regular {root : Place} {c : Corpus} (regular : Regular t root)
    (real : t.realPath path = .ok ⟨1, root⟩) (scanned : scan t path o = .ok c) :
    TakenOnce t c := by
  obtain ⟨place, f, fs, walked, rfl⟩ := scan_eq_ok_iff.mp scanned
  obtain rfl := Except.ok.inj (walked.real.symm.trans real)
  obtain ⟨l, listed, nodup, members⟩ := files_spec f regular
  obtain rfl := Except.ok.inj (walked.listed.symm.trans listed)
  have wellFormed := wellFormed_of_mem_files regular listed
  have itself : ∀ file ∈ fs, t.realPath file = .ok file := fun file member => by
    obtain ⟨names, visits, rfl⟩ := (members file).mp member
    exact visits.realPath regular
  rw [distinctFindings_flatMap nodup wellFormed, takenOnce_gathered_iff wellFormed]
  refine (nodup.filter _).imp_of_mem fun {p q} pIn qIn different => ?_
  rintro ⟨same, -⟩
  rw [itself p (List.mem_of_mem_filter pIn), itself q (List.mem_of_mem_filter qIn)] at same
  exact different (Except.ok.inj same)

/-! ## Files with several paths -/

/-- **Annotations are counted once exactly if the source files share no lines.** -/
theorem takenOnce_iff (wellNamed : WellNamed t) (wellFormed : Path.WellFormed path)
    (walked : Walked t path o root f fs) :
    ∃ c, scan t path o = .ok c ∧
      (TakenOnce t c ↔ (sourcesOf fs).Pairwise fun p q => ¬ SharesLines t p q) := by
  obtain ⟨scanned, files_⟩ := scan_of_walked wellNamed wellFormed walked
  exact ⟨_, scanned, takenOnce_gathered_iff files_⟩

/-- A workspace with a file and a link beside it that leads to the file. -/
def aliasWorkspace : FileTree :=
  { nodes :=
      [(["ws".toList], .directory),
        (["ws".toList, "a.js".toList], .file (Text.encode "// @group x")),
        (["ws".toList, "b.js".toList], .link "a.js")] }

def aliasRoot : Path := ⟨1, ["ws".toList]⟩

theorem wellFormed_aliasRoot : Path.WellFormed aliasRoot := .of_names (by decide) (by decide)

theorem wellNamed_aliasWorkspace : WellNamed aliasWorkspace := .of_nodes (by decide)

/-- Both names are listed as files, unless a rule leaves them out. -/
theorem entryFiles_aliasWorkspace {deeper : Path → Except Fault (List Path)} {name : Text}
    (member : name ∈ ["a.js".toList, "b.js".toList]) (wanted : isIgnored f.rules name = false) :
    entryFiles (leadsOut aliasWorkspace aliasRoot) aliasWorkspace f aliasRoot deeper aliasRoot name =
      .ok [aliasRoot.child name] := by
  have below : ∀ name ∈ ["a.js".toList, "b.js".toList],
      (aliasRoot.below (aliasRoot.child name)).toText = name := by decide
  rw [← below name member] at wanted
  rcases List.mem_pair.mp member with rfl | rfl
  · exact entryFiles_of_isFile (by cbv) (by cbv) (by cbv) wanted
  · exact entryFiles_of_isFile (by cbv) (by cbv) (by cbv) wanted

theorem exists_walked_aliasWorkspace :
    ∃ f, Walked aliasWorkspace aliasRoot {} aliasRoot f
      [aliasRoot.child "a.js", aliasRoot.child "b.js"] := by
  have real : aliasWorkspace.realPath aliasRoot = .ok aliasRoot := by cbv
  have own : ignoreLines aliasWorkspace aliasRoot = .ok [] := by cbv
  have wanted : (readRules (defaultRules ++ [])).toOption.map (fun rs =>
      (isIgnored rs "a.js", isIgnored rs "b.js")) = some (false, false) := by decide +kernel
  obtain ⟨rules, read, wanted⟩ := Option.map_eq_some_iff.mp wanted
  obtain ⟨first, second⟩ := Prod.mk.inj wanted
  refine ⟨⟨skippedDirectories ++ [], rules⟩, real, ?_, ?_⟩
  · rw [filter, if_pos rfl, own, Run.ok_bind]
    dsimp only
    rw [Run.toOption_eq_some_iff.mp read]
    rfl
  · have limit : depthLimit aliasWorkspace = 163 + 1 := rfl
    have entries : aliasWorkspace.names aliasRoot = ["a.js".toList, "b.js".toList] := by cbv
    rw [files, limit, filesFrom_succ, entries, Run.mapM_eq_ok_iff.mpr
      (.cons (entryFiles_aliasWorkspace (by simp) first)
        (.cons (entryFiles_aliasWorkspace (by simp) second) .nil))]
    rfl

/-- The annotation is found under both paths. -/
theorem lines_groupsIn_aliasWorkspace :
    ∀ name ∈ ["a.js".toList, "b.js".toList],
      (groupsIn aliasWorkspace (aliasRoot.child name)).map (·.lines) = [[1]] := by
  have read : ∀ name ∈ ["a.js".toList, "b.js".toList],
      aliasWorkspace.read (aliasRoot.child name) = .ok (Text.encode "// @group x") := by
    rw [List.forall_mem_cons, List.forall_mem_singleton]
    exact ⟨by cbv, by cbv⟩
  have scanned : ∀ name ∈ ["a.js".toList, "b.js".toList],
      ((scanner.scan (Text.withLineFeeds (Text.decodeLossy (Text.encode "// @group x")))
        (aliasRoot.child name).toText none).1.toOption.getD []).map (·.lines) = [[1]] := by
    decide +kernel
  intro name member
  rw [groupsIn, scanFile, read name member]
  exact scanned name member

/-- The scan of that workspace is one to which the condition applies. -/
theorem takenOnce_iff_alias :
    ∃ f c, Walked aliasWorkspace aliasRoot {} aliasRoot f
        [aliasRoot.child "a.js", aliasRoot.child "b.js"] ∧
      scan aliasWorkspace aliasRoot {} = .ok c ∧
      (TakenOnce aliasWorkspace c ↔
        (sourcesOf [aliasRoot.child "a.js", aliasRoot.child "b.js"]).Pairwise
          fun p q => ¬ SharesLines aliasWorkspace p q) := by
  obtain ⟨f, walked⟩ := exists_walked_aliasWorkspace
  obtain ⟨c, scanned, once⟩ := takenOnce_iff wellNamed_aliasWorkspace wellFormed_aliasRoot walked
  exact ⟨f, c, walked, scanned, once⟩

/-- **A link to a file beside it has what is found in the file counted twice.** -/
theorem not_takenOnce_alias :
    ∃ c, scan aliasWorkspace aliasRoot {} = .ok c ∧ ¬ TakenOnce aliasWorkspace c := by
  obtain ⟨f, walked⟩ := exists_walked_aliasWorkspace
  obtain ⟨scanned, files_⟩ := scan_of_walked wellNamed_aliasWorkspace wellFormed_aliasRoot walked
  refine ⟨_, scanned, fun once => ?_⟩
  have sources : sourcesOf [aliasRoot.child "a.js", aliasRoot.child "b.js"] =
      [aliasRoot.child "a.js", aliasRoot.child "b.js"] := by decide +kernel
  rw [takenOnce_gathered_iff files_, sources, List.pairwise_pair] at once
  have found (name : Text) (member : name ∈ ["a.js".toList, "b.js".toList]) :
      ∃ g ∈ groupsIn aliasWorkspace (aliasRoot.child name), g.lines = [1] :=
    List.mem_map.mp (by rw [lines_groupsIn_aliasWorkspace name member]; simp)
  obtain ⟨g, inside, lines⟩ := found "a.js" (by simp)
  obtain ⟨h, inside', lines'⟩ := found "b.js" (by simp)
  exact once ⟨by cbv, g, inside, h, inside', lines.trans lines'.symm⟩

end CodeAtlas.Workspace
