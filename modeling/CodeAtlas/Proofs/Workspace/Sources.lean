/-
# Proofs.Workspace.Sources -- the files that a scan covers

A *source file* of a workspace is a file of a known type that is not ignored, below directories none
of which is passed over for its name or ignored (`IsSource`).  A directory that is not entered hides
everything below it, even what a rule takes back in.

In a workspace without links a scan reads the source files and no others, each once and in
depth-first order of the names, and its corpus holds what each of them has, type by type: nothing is
dropped as found twice (`scan_covers`).
-/
import CodeAtlas.Proofs.Workspace.Order
import CodeAtlas.Proofs.Workspace.Scan

namespace CodeAtlas.Workspace

set_option autoImplicit false

open FileTree (Grounded Regular)

variable {t : FileTree} {f : Filter} {o : Options} {root above within : Place} {name : Text}
  {names : List Text} {file path : Path} {fs walk : List Path}

/-! ## Source files -/

/-- A walk goes into this directory. -/
structure Entered (t : FileTree) (f : Filter) (root above : Place) (name : Text) : Prop where
  node : t.node? (root ++ above ++ [name]) = some .directory
  kept : f.skips name = false
  wanted : isIgnored f.rules (Path.toText ⟨0, above ++ [name]⟩ ++ ['/']) = false

theorem visits_cons_iff (more : names ≠ []) :
    Visits t f root above (name :: names) ↔
      Entered t f root above name ∧ Visits t f root (above ++ [name]) names := by
  constructor
  · intro visits
    cases visits with
    | file => exact absurd rfl more
    | down node kept wanted onward => exact ⟨⟨node, kept, wanted⟩, onward⟩
  · rintro ⟨⟨node, kept, wanted⟩, onward⟩
    exact .down node kept wanted onward

/-- **A file is listed if every directory on the way is entered** and it is not ignored itself. -/
theorem visits_concat_iff :
    Visits t f root above (within ++ [name]) ↔
      (∀ start last, start ++ [last] <+: within → Entered t f root (above ++ start) last) ∧
        (∃ content, t.node? (root ++ above ++ within ++ [name]) = some (.file content)) ∧
        isIgnored f.rules (Path.toText ⟨0, above ++ within ++ [name]⟩) = false := by
  induction within generalizing above with
  | nil =>
      simp only [List.nil_append, List.append_nil]
      constructor
      · intro visits
        cases visits with
        | file node wanted => exact ⟨by simp, ⟨_, node⟩, wanted⟩
        | down _ _ _ onward => exact absurd rfl onward.ne_nil
      · rintro ⟨-, ⟨content, node⟩, wanted⟩
        exact .file node wanted
  | cons first within ih =>
      have onward := @ih (above ++ [first])
      simp only [List.append_assoc, List.cons_append, List.nil_append] at onward ⊢
      rw [visits_cons_iff (by simp), onward]
      constructor
      · rintro ⟨here, directories, file⟩
        refine ⟨fun start last initial => ?_, file⟩
        cases start with
        | nil =>
            obtain ⟨rfl, -⟩ := List.cons_prefix_cons.mp initial
            rwa [List.append_nil]
        | cons first' start =>
            obtain ⟨rfl, later⟩ := List.cons_prefix_cons.mp initial
            exact directories start last later
      · rintro ⟨directories, file⟩
        have here := directories [] first (List.cons_prefix_cons.mpr ⟨rfl, List.nil_prefix⟩)
        rw [List.append_nil] at here
        refine ⟨here, fun start last later => ?_, file⟩
        exact directories (first :: start) last (List.cons_prefix_cons.mpr ⟨rfl, later⟩)

/-- **A source file**: the one with this name in the directory `within` the workspace.  What is
ignored is a matter of paths from the root, those of directories with a slash behind. -/
structure IsSource (t : FileTree) (o : Options) (ignored : Text → Bool) (root within : Place)
    (name : Text) : Prop where
  file : ∃ content, t.node? (root ++ within ++ [name]) = some (.file content)
  directories : ∀ start, start <+: within → t.node? (root ++ start) = some .directory
  entered : ∀ start last, start ++ [last] <+: within →
    last ∉ skippedDirectories ∧ last ∉ o.extraSkipped ∧ last.head? ≠ some '.' ∧
      ignored (Path.toText ⟨0, start ++ [last]⟩ ++ ['/']) = false
  wanted : ignored (Path.toText ⟨0, within ++ [name]⟩) = false
  supported :
    Language.isSupported (Language.fileType (Path.toText ⟨1, root ++ within ++ [name]⟩)) = true

theorem skipped_of_filter {place : Path} (filtered : filter t place o = .ok f) :
    f.skipped = skippedDirectories ++ o.extraSkipped := by
  rw [filter] at filtered
  split at filtered
  all_goals
    obtain ⟨own, -, rest⟩ := Run.bind_eq_ok_iff.mp filtered
    obtain ⟨rules, -, rfl⟩ := Run.map_eq_ok_iff.mp rest
    rfl

/-- The directories to skip are the usual ones and those of the options. -/
theorem skips_eq_false_iff {place : Path} (filtered : filter t place o = .ok f) :
    f.skips name = false ↔
      name ∉ skippedDirectories ∧ name ∉ o.extraSkipped ∧ name.head? ≠ some '.' := by
  simp [Filter.skips, skipped_of_filter filtered, and_assoc]

/-- **The source files are the listed files of a known type.** -/
theorem isSource_iff (regular : Regular t root) (filtered : filter t ⟨1, root⟩ o = .ok f) :
    IsSource t o (isIgnored f.rules) root within name ↔ Visits t f root [] (within ++ [name]) ∧
      Language.isSupported (Language.fileType (Path.toText ⟨1, root ++ within ++ [name]⟩)) =
        true := by
  rw [visits_concat_iff]
  simp only [List.nil_append, List.append_nil]
  constructor
  · intro source
    refine ⟨⟨fun start last initial => ?_, source.file, source.wanted⟩, source.supported⟩
    obtain ⟨usual, own, dot, wanted⟩ := source.entered start last initial
    refine ⟨?_, (skips_eq_false_iff filtered).mpr ⟨usual, own, dot⟩, wanted⟩
    rw [List.append_assoc]
    exact source.directories _ initial
  · rintro ⟨⟨directories, file, wanted⟩, supported⟩
    refine ⟨file, fun start initial => ?_, fun start last initial => ?_, wanted, supported⟩
    · rcases List.eq_nil_or_concat start with rfl | ⟨start, last, rfl⟩
      · rw [List.append_nil]
        exact regular.grounded.self
      · rw [List.concat_eq_append] at initial ⊢
        rw [← List.append_assoc]
        exact (directories start last initial).node
    · obtain ⟨-, kept, wanted⟩ := directories start last initial
      obtain ⟨usual, own, dot⟩ := (skips_eq_false_iff filtered).mp kept
      exact ⟨usual, own, dot, wanted⟩

/-! ## Their groups -/

/-- The files of a walk that are scanned: those of a known type. -/
def sourcesOf (walk : List Path) : List Path :=
  walk.filter fun file => Language.isSupported (Language.fileType file.toText)

/-- The groups of one file. -/
def groupsIn (t : FileTree) (file : Path) : List Group :=
  (scanFile t file file.toText none).toOption.getD []

theorem scanFile_eq (t : FileTree) (file : Path) :
    scanFile t file file.toText none = .ok (groupsIn t file) := by
  obtain ⟨gs, scanned, -⟩ := exists_scanFile t file file.toText
  rw [groupsIn, scanned]
  rfl

theorem foundIn_eq_map (t : FileTree) (file : Path) :
    foundIn t file = if Language.isSupported (Language.fileType file.toText) then
      (groupsIn t file).map (Language.fileType file.toText, ·) else [] :=
  (foundIn_eq (scanFile_eq t file)).2

/-- What is found in a walk is what the scanned files have, each under its type. -/
theorem flatMap_foundIn (t : FileTree) (walk : List Path) :
    walk.flatMap (foundIn t) = (sourcesOf walk).flatMap fun file =>
      (groupsIn t file).map (Language.fileType file.toText, ·) := by
  induction walk with
  | nil => rfl
  | cons file walk ih =>
      rw [List.flatMap_cons, ih, foundIn_eq_map]
      simp only [sourcesOf, List.filter_cons]
      split
      · rw [List.flatMap_cons]
      · rfl

/-- The groups found under a type are those of the files of that type. -/
theorem filter_flatMap_map (fs : List Path) (gs : Path → List Group) (fileType : Text) :
    ((fs.flatMap fun file => (gs file).map (Language.fileType file.toText, ·)).filter
        (·.1 == fileType)).map Prod.snd =
      (fs.filter (Language.fileType ·.toText == fileType)).flatMap gs := by
  induction fs with
  | nil => rfl
  | cons file fs ih =>
      rw [List.flatMap_cons, List.filter_append, List.map_append, ih, List.filter_cons]
      split
      · rename_i same
        simp [List.filter_map, Function.comp_def, beq_iff_eq.mp same]
      · rename_i other
        simp [List.filter_map, Function.comp_def, beq_eq_false_iff_ne.mpr (by simpa using other)]

/-! ## The scan -/

/-- **What a scan covers**, given the files of its walk. -/
structure Covers (t : FileTree) (o : Options) (ignored : Text → Bool) (root : Place)
    (walk : List Path) (c : Corpus) : Prop where
  /-- The source files are scanned, and no others. -/
  sources : ∀ file, file ∈ sourcesOf walk ↔ ∃ within name, IsSource t o ignored root within name ∧
    file = ⟨1, root ++ within ++ [name]⟩
  /-- Each is scanned once, in depth-first order of the names. -/
  order : (sourcesOf walk).Pairwise fun p q => p.parts < q.parts
  /-- Each of them gives its groups. -/
  scanned : ∀ file, scanFile t file file.toText none = .ok (groupsIn t file)
  /-- No group is dropped as found twice. -/
  kept : ∃ lists, walk.mapM (findings t) = .ok lists ∧
    distinctFindings lists.flatten = lists.flatten
  /-- Under a type are the groups of its files, one file after the other. -/
  groups : ∀ fileType, c.get? fileType =
    let gs := ((sourcesOf walk).filter (Language.fileType ·.toText == fileType)).flatMap (groupsIn t)
    if gs = [] then none else some gs
  /-- The types are in the order in which their first groups are found. -/
  types : c.keys = Text.distinct ((sourcesOf walk).flatMap fun file =>
    (groupsIn t file).map fun _ => Language.fileType file.toText)

/-- **A scan of a workspace without links covers exactly its source files and drops nothing.** -/
theorem scan_covers (regular : Regular t root) (real : t.realPath path = .ok ⟨1, root⟩)
    (filtered : filter t ⟨1, root⟩ o = .ok f) :
    ∃ walk c, files t f ⟨1, root⟩ = .ok walk ∧ scan t path o = .ok c ∧
      Covers t o (isIgnored f.rules) root walk c := by
  obtain ⟨walk, listed, nodup, members⟩ := files_spec f regular
  have kept := distinctFindings_flatMap (t := t) nodup (wellFormed_of_mem_files regular listed)
  refine ⟨walk, gathered (walk.flatMap (foundIn t)), listed, ?_, ?_⟩
  · rw [scan_eq_ok_iff]
    exact ⟨_, f, walk, ⟨real, filtered, listed⟩, by rw [kept]⟩
  · refine ⟨fun file => ?_, (pairwise_files listed).filter _, scanFile_eq t, ?_, fun fileType => ?_,
      ?_⟩
    · rw [sourcesOf, List.mem_filter, members]
      constructor
      · rintro ⟨⟨names, visits, rfl⟩, supported⟩
        obtain ⟨within, name, rfl⟩ := List.eq_nil_or_concat names |>.resolve_left visits.ne_nil
        rw [List.concat_eq_append, ← List.append_assoc] at *
        exact ⟨within, name, (isSource_iff regular filtered).mpr ⟨visits, supported⟩, rfl⟩
      · rintro ⟨within, name, source, rfl⟩
        obtain ⟨visits, supported⟩ := (isSource_iff regular filtered).mp source
        exact ⟨⟨_, visits, by rw [List.append_assoc]⟩, supported⟩
    · exact ⟨walk.map (foundIn t), mapM_findings t walk, by rwa [← List.flatMap_def]⟩
    · rw [get?_gathered, flatMap_foundIn, filter_flatMap_map]
    · rw [keys_gathered, flatMap_foundIn, List.map_flatMap]
      simp [Function.comp_def]

/-- A workspace with a directory that is ignored. -/
def ignoringWorkspace : FileTree :=
  { nodes :=
      [(["ws".toList], .directory),
        (["ws".toList, ".gitignore".toList], .file (Text.encode "old/")),
        (["ws".toList, "a.py".toList], .file (Text.encode "# @group Auth: log in")),
        (["ws".toList, "old".toList], .directory),
        (["ws".toList, "old".toList, "b.py".toList], .file (Text.encode "# @group Auth"))] }

def ignoringRoot : Place := ["ws".toList]

theorem regular_ignoringWorkspace : Regular ignoringWorkspace ignoringRoot :=
  .of_nodes ((FileTree.grounded_nil _).concat (by decide)) (by decide) (by simp [ignoringWorkspace])

theorem exists_filter_ignoringWorkspace :
    ∃ f, filter ignoringWorkspace ⟨1, ignoringRoot⟩ {} = .ok f ∧
      isIgnored f.rules "old/" = true := by
  have own : ignoreLines ignoringWorkspace ⟨1, ignoringRoot⟩ = .ok ["old/".toList] := by
    have node : ignoringWorkspace.node? (ignoringRoot ++ [ignoreFileName]) =
        some (.file (Text.encode "old/")) := rfl
    rw [ignoreLines, FileTree.readText, read_ignoreFile regular_ignoringWorkspace, node]
    simp only [Run.ok_bind, Text.decode?_encode]
    rfl
  have ignored : (readRules (defaultRules ++ ["old/".toList])).toOption.map (isIgnored · "old/") =
      some true := by decide +kernel
  cases rules : readRules (defaultRules ++ ["old/".toList]) with
  | error fault =>
      rw [rules] at ignored
      cases ignored
  | ok rs =>
      rw [rules] at ignored
      refine ⟨⟨skippedDirectories ++ [], rs⟩, ?_, Option.some.inj ignored⟩
      rw [filter, if_pos rfl, own, Run.ok_bind]
      dsimp only
      rw [rules]
      rfl

/-- Its ignore file is read, and the scan covers what it leaves. -/
theorem scan_covers_ignoring :
    ∃ f walk c, filter ignoringWorkspace ⟨1, ignoringRoot⟩ {} = .ok f ∧
      isIgnored f.rules "old/" = true ∧ files ignoringWorkspace f ⟨1, ignoringRoot⟩ = .ok walk ∧
      scan ignoringWorkspace ⟨1, ignoringRoot⟩ {} = .ok c ∧
      Covers ignoringWorkspace {} (isIgnored f.rules) ignoringRoot walk c := by
  have regular := regular_ignoringWorkspace
  have real : ignoringWorkspace.realPath ⟨1, ignoringRoot⟩ = .ok ⟨1, ignoringRoot⟩ :=
    FileTree.realPath_of_grounded regular.root_named regular.grounded
  obtain ⟨f, filtered, ignored⟩ := exists_filter_ignoringWorkspace
  obtain ⟨walk, c, covers⟩ := scan_covers regular real filtered
  exact ⟨f, walk, c, filtered, ignored, covers⟩

end CodeAtlas.Workspace
