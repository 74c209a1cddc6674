/-
# Proofs.Workspace.Scan -- the corpus that a scan gives

Every file of a walk is read, so its groups are a matter of what stands at its place (`foundIn`,
`foundIn_of_node`).  No two of all groups have the same file and the same lines, hence none is
dropped as found twice, and the corpus of a scan is compact and holds the groups of all files of the
walk (`exists_scan`).

The rules of a walk depend on the ignore file and nothing else in the tree (`filter_of_node`), and
that file is never scanned itself (`ne_ignoreFile`).
-/
import CodeAtlas.Proofs.Corpus
import CodeAtlas.Proofs.Scan.Found
import CodeAtlas.Proofs.Text.Utf8
import CodeAtlas.Proofs.Workspace.Walk

namespace CodeAtlas.Workspace

set_option autoImplicit false

open FileTree (Regular)
open Scan (Found)

variable {t t' : FileTree} {root : Place} {f : Filter} {names : List Text} {file : Path}

/-! ## One file -/

/-- The lines of a file, as they are scanned. -/
def linesOf (content : Bytes) : List Text :=
  Text.splitOn '\n' (Text.withLineFeeds (Text.decodeLossy content))

/-- No file has more lines than bytes, but for the first line. -/
theorem length_linesOf_le (content : Bytes) : (linesOf content).length ≤ content.length + 1 :=
  calc (linesOf content).length
      ≤ (Text.withLineFeeds (Text.decodeLossy content)).length + 1 := Text.length_splitOn_le _
    _ ≤ (Text.decodeLossy content).length + 1 := Nat.succ_le_succ (Text.length_withLineFeeds_le _)
    _ ≤ content.length + 1 := Nat.succ_le_succ (Text.length_decodeLossy_le _)

/-- **Every file is scanned**; one that cannot be read has no groups. -/
theorem exists_scanFile (t : FileTree) (path : Path) (filePath : Text) :
    ∃ gs, scanFile t path filePath none = .ok gs ∧ (gs.map (·.lines)).Nodup ∧
      ∀ g ∈ gs, ∃ content, t.read path = .ok content ∧
        Found filePath (linesOf content).length g := by
  rw [scanFile]
  cases read : t.read path with
  | error fault => exact ⟨[], rfl, List.nodup_nil, by simp⟩
  | ok content =>
      obtain ⟨gs, scanned, found, nodup⟩ :=
        Scan.exists_scan (Text.withLineFeeds (Text.decodeLossy content)) filePath none
      exact ⟨gs, scanned, nodup, fun g member => ⟨content, rfl, found g member⟩⟩

/-- The groups of one file of a walk under its type. -/
def foundIn (t : FileTree) (file : Path) : List (Text × Group) := (findings t file).toOption.getD []

/-- What a scan of one file finds, given its groups. -/
theorem foundIn_eq {gs : List Group} (scanned : scanFile t file file.toText none = .ok gs) :
    findings t file = .ok (foundIn t file) ∧
      foundIn t file =
        if Language.isSupported (Language.fileType file.toText) then
          gs.map (Language.fileType file.toText, ·) else [] := by
  have found : findings t file = .ok (if Language.isSupported (Language.fileType file.toText) then
      gs.map (Language.fileType file.toText, ·) else []) := by
    rw [findings, scanned]
    split
    · rfl
    · rfl
  have same : foundIn t file = if Language.isSupported (Language.fileType file.toText) then
      gs.map (Language.fileType file.toText, ·) else [] := by
    rw [foundIn, found]
    rfl
  exact ⟨same ▸ found, same⟩

theorem findings_eq (t : FileTree) (file : Path) : findings t file = .ok (foundIn t file) := by
  obtain ⟨gs, scanned, -⟩ := exists_scanFile t file file.toText
  exact (foundIn_eq scanned).1

theorem mapM_findings (t : FileTree) (fs : List Path) :
    fs.mapM (findings t) = .ok (fs.map (foundIn t)) := by
  rw [Run.mapM_eq_ok_iff, List.forall₂_map_right_iff, List.forall₂_same]
  exact fun file _ => findings_eq t file

theorem mem_foundIn {x : Text × Group} (member : x ∈ foundIn t file) :
    x.1 = Language.fileType file.toText ∧ Language.isSupported x.1 = true ∧
      ∃ content, t.read file = .ok content ∧ Found file.toText (linesOf content).length x.2 := by
  obtain ⟨gs, scanned, -, found⟩ := exists_scanFile t file file.toText
  rw [(foundIn_eq scanned).2] at member
  split at member
  · rename_i supported
    obtain ⟨g, inside, rfl⟩ := List.mem_map.mp member
    exact ⟨rfl, supported, found g inside⟩
  · cases member

theorem nodup_foundIn (t : FileTree) (file : Path) :
    ((foundIn t file).map fun x => (x.2.filePath, x.2.lines)).Nodup := by
  obtain ⟨gs, scanned, nodup, -⟩ := exists_scanFile t file file.toText
  rw [(foundIn_eq scanned).2]
  split
  · rw [List.map_map]
    refine List.Nodup.of_map Prod.snd ?_
    rw [List.map_map]
    exact nodup
  · exact List.nodup_nil

/-- The groups of a file depend on nothing but its content. -/
theorem foundIn_congr (same : t.read file = t'.read file) : foundIn t file = foundIn t' file := by
  rw [foundIn, foundIn, findings, findings, scanFile, scanFile, same]

/-! ## All files -/

/-- Groups of different files or different lines are all kept. -/
theorem distinctFindings_of_nodup {found : List (Text × Group)}
    (nodup : (found.map fun x => (x.2.filePath, x.2.lines)).Nodup) :
    distinctFindings found = found := by
  induction found using List.reverseRecOn with
  | nil => rfl
  | append_singleton found x ih =>
      rw [List.map_append, List.nodup_append] at nodup
      have seen : distinctFindings found = found := ih nodup.1
      have new : found.any (fun s => sameFinding s.2 x.2) = false := by
        rw [List.any_eq_false]
        intro s member same
        simp only [sameFinding, Bool.and_eq_true, beq_iff_eq] at same
        refine nodup.2.2 _ (List.mem_map_of_mem member) _ List.mem_cons_self ?_
        rw [same.1.2, same.2]
      rw [distinctFindings, List.foldl_append, ← distinctFindings, seen, List.foldl_cons, new]
      rfl

/-- The corpus of groups that have been found one after the other. -/
def gathered (found : List (Text × Group)) : Corpus :=
  found.foldl (fun c x => Entries.push c x.1 x.2) []

theorem gathered_concat (found : List (Text × Group)) (x : Text × Group) :
    gathered (found ++ [x]) = (gathered found).add x.1 [x.2] := by
  rw [gathered, List.foldl_append]
  rfl

theorem gathered_spec (found : List (Text × Group)) :
    (gathered found).Compact ∧ (gathered found).tagged.Perm found := by
  induction found using List.reverseRecOn with
  | nil => exact ⟨Corpus.compact_nil, .nil⟩
  | append_singleton found x ih =>
      rw [gathered_concat]
      exact ⟨ih.1.add (by simp), (Corpus.tagged_add _ _ _).trans (ih.2.append_right _)⟩

/-- The groups of a type are those that were found under it, in their order. -/
theorem get?_gathered (found : List (Text × Group)) (fileType : Text) :
    (gathered found).get? fileType =
      let gs := (found.filter (·.1 == fileType)).map Prod.snd
      if gs = [] then none else some gs :=
  Entries.get?_collected Prod.fst Prod.snd found fileType

/-- The types are in the order of their first groups. -/
theorem keys_gathered (found : List (Text × Group)) :
    (gathered found).keys = Text.distinct (found.map Prod.fst) :=
  Entries.keys_collected Prod.fst Prod.snd found

/-- What is found in the files of a walk is gathered, without what is found twice. -/
theorem corpusOf_eq (t : FileTree) (fs : List Path) :
    corpusOf t fs = .ok (gathered (distinctFindings (fs.flatMap (foundIn t)))) := by
  rw [corpusOf, mapM_findings, Run.ok_bind, ← List.flatMap_def]
  rfl

/-- **The way of a scan**: the real place of the workspace, what is left out there, and the files of
the walk. -/
structure Walked (t : FileTree) (path : Path) (o : Options) (root : Path) (f : Filter)
    (fs : List Path) : Prop where
  real : t.realPath path = .ok root
  filtered : filter t root o = .ok f
  listed : files t f root = .ok fs

/-- **A scan gathers what is found in the files of its walk.** -/
theorem scan_eq_ok_iff {path : Path} {o : Options} {c : Corpus} :
    scan t path o = .ok c ↔ ∃ root f fs, Walked t path o root f fs ∧
      c = gathered (distinctFindings (fs.flatMap (foundIn t))) := by
  rw [scan]
  simp only [Run.bind_eq_ok_iff, corpusOf_eq, Except.ok.injEq]
  constructor
  · rintro ⟨root, real, f, filtered, fs, listed, rfl⟩
    exact ⟨root, f, fs, ⟨real, filtered, listed⟩, rfl⟩
  · rintro ⟨root, f, fs, walked, rfl⟩
    exact ⟨root, walked.real, f, walked.filtered, fs, walked.listed, rfl⟩

/-- What is found in different files, or on different lines of one, is not found twice. -/
theorem nodup_findings {fs : List Path} (nodup : fs.Nodup)
    (wellFormed : ∀ file ∈ fs, Path.WellFormed file) :
    ((fs.flatMap (foundIn t)).map fun x => (x.2.filePath, x.2.lines)).Nodup := by
  rw [List.map_flatMap, List.nodup_flatMap]
  refine ⟨fun file _ => nodup_foundIn t file, nodup.imp_of_mem ?_⟩
  intro file file' member member' different key inside inside'
  obtain ⟨x, found, rfl⟩ := List.mem_map.mp inside
  obtain ⟨x', found', same⟩ := List.mem_map.mp inside'
  obtain ⟨-, -, _, -, is⟩ := mem_foundIn found
  obtain ⟨-, -, _, -, is'⟩ := mem_foundIn found'
  have paths : file'.toText = file.toText := by
    rw [← is.filePath, ← is'.filePath]
    exact (Prod.mk.inj same).1
  exact different ((Path.toText_inj (wellFormed _ member') (wellFormed _ member)).mp paths).symm

/-- **No group of a walk is dropped** as found twice. -/
theorem distinctFindings_flatMap {fs : List Path} (nodup : fs.Nodup)
    (wellFormed : ∀ file ∈ fs, Path.WellFormed file) :
    distinctFindings (fs.flatMap (foundIn t)) = fs.flatMap (foundIn t) :=
  distinctFindings_of_nodup (nodup_findings nodup wellFormed)

/-- The file at the end of a visit is an entry of a directory that is not behind a link. -/
theorem Visits.exists_entry (regular : Regular t root) (visits : Visits t f root [] names) :
    ∃ d name content, root ++ names = d ++ [name] ∧ FileTree.Named d ∧ FileTree.Grounded t d ∧
      FileTree.IsEntryName name ∧ t.node? (d ++ [name]) = some (.file content) := by
  have start : root ++ [] = root := List.append_nil root
  obtain ⟨within, name, content, rfl, ground, node⟩ :=
    visits.exists_file (start.symm ▸ regular.grounded)
  rw [start] at ground node
  have whole : root ++ (within ++ [name]) = root ++ within ++ [name] :=
    (List.append_assoc _ _ _).symm
  have all : FileTree.Named (root ++ (within ++ [name])) :=
    regular.named (by rw [whole, node]; simp)
  exact ⟨root ++ within, name, content, whole,
    fun c member => all c (whole ▸ List.mem_append_left _ member), ground, all name (by simp), node⟩

/-- The file at the end of a visit can be read, and written. -/
theorem Visits.exists_read (regular : Regular t root) (visits : Visits t f root [] names) :
    ∃ content, t.node? (root ++ names) = some (.file content) ∧
      t.read ⟨1, root ++ names⟩ = .ok content ∧
      ∀ content', t.write ⟨1, root ++ names⟩ content' =
        .ok (t.put (root ++ names) (.file content')) := by
  obtain ⟨d, name, content, whole, named, ground, entry, node⟩ := visits.exists_entry regular
  have notLink : ∀ target, t.node? (d ++ [name]) ≠ some (.link target) := by
    rw [node]
    rintro target ⟨⟩
  rw [whole]
  refine ⟨content, node, ?_, fun content' => ?_⟩
  · rw [FileTree.read_concat named ground entry notLink, node]
  · rw [FileTree.write_concat_eq_ok_iff named ground entry notLink, node]
    exact ⟨by simp, rfl⟩

/-- The path of a visited file is read back from its text. -/
theorem Visits.wellFormed (regular : Regular t root) (visits : Visits t f root [] names) :
    Path.WellFormed ⟨1, root ++ names⟩ := by
  obtain ⟨content, node, -⟩ := visits.exists_read regular
  refine ⟨Nat.le_succ 1, fun c member => ?_⟩
  exact (regular.names names (by rw [node]; simp) c member).toIsComponent

theorem wellFormed_of_mem_files {fs : List Path} (regular : Regular t root)
    (listed : files t f ⟨1, root⟩ = .ok fs) : ∀ file ∈ fs, Path.WellFormed file := by
  obtain ⟨l, is, -, members⟩ := files_spec f regular
  obtain rfl := Except.ok.inj (listed.symm.trans is)
  intro file member
  obtain ⟨names, visits, rfl⟩ := (members file).mp member
  exact visits.wellFormed regular

/-- **A scan of a workspace without links** gives a compact corpus with the groups of all files of
the walk. -/
theorem exists_scan {o : Options} (regular : Regular t root)
    (filtered : filter t ⟨1, root⟩ o = .ok f) :
    ∃ fs c, files t f ⟨1, root⟩ = .ok fs ∧ scan t ⟨1, root⟩ o = .ok c ∧ c.Compact ∧
      c.tagged.Perm (fs.flatMap (foundIn t)) := by
  obtain ⟨fs, listed, nodup, -⟩ := files_spec f regular
  refine ⟨fs, gathered (fs.flatMap (foundIn t)), listed, ?_, gathered_spec _⟩
  refine scan_eq_ok_iff.mpr ⟨⟨1, root⟩, f, fs, ⟨?_, filtered, listed⟩, ?_⟩
  · exact FileTree.realPath_of_grounded regular.root_named regular.grounded
  · rw [distinctFindings_flatMap nodup (wellFormed_of_mem_files regular listed)]

/-! ## Other trees -/

/-- The groups of a visited file depend on nothing but the node at its place. -/
theorem foundIn_of_node (regular : Regular t root) (regular' : Regular t' root)
    (visits : Visits t f root [] names) (visits' : Visits t' f root [] names)
    (same : t.node? (root ++ names) = t'.node? (root ++ names)) :
    foundIn t ⟨1, root ++ names⟩ = foundIn t' ⟨1, root ++ names⟩ := by
  obtain ⟨content, node, read, -⟩ := visits.exists_read regular
  obtain ⟨content', node', read', -⟩ := visits'.exists_read regular'
  rw [node, node'] at same
  cases same
  exact foundIn_congr (read.trans read'.symm)

/-- Without the groups of one file those of the others are left. -/
theorem filter_flatMap_foundIn {fs : List Path} (nodup : fs.Nodup)
    (wellFormed : ∀ file ∈ fs, Path.WellFormed file) (member : file ∈ fs) :
    ((fs.flatMap (foundIn t)).filter (·.2.filePath != file.toText)).Perm
      ((fs.erase file).flatMap (foundIn t)) := by
  have split := ((List.perm_cons_erase member).flatMap_right (foundIn t)).filter
    (·.2.filePath != file.toText)
  have own : (foundIn t file).filter (·.2.filePath != file.toText) = [] := by
    rw [List.filter_eq_nil_iff]
    intro x inside
    obtain ⟨-, -, _, -, found⟩ := mem_foundIn inside
    simp [found.filePath]
  have others : ((fs.erase file).flatMap (foundIn t)).filter (·.2.filePath != file.toText) =
      (fs.erase file).flatMap (foundIn t) := by
    rw [List.filter_eq_self]
    intro x inside
    obtain ⟨file', walked, here⟩ := List.mem_flatMap.mp inside
    obtain ⟨-, -, _, -, found⟩ := mem_foundIn here
    obtain ⟨different, member'⟩ := (nodup.mem_erase_iff).mp walked
    rw [found.filePath, bne_iff_ne, Ne,
      Path.toText_inj (wellFormed file' member') (wellFormed file member)]
    exact different
  rwa [List.flatMap_cons, List.filter_append, own, others] at split

theorem isName_ignoreFileName : Path.IsName ignoreFileName := by decide

theorem read_ignoreFile (regular : Regular t root) :
    t.read (Path.child ⟨1, root⟩ ignoreFileName) =
      match t.node? (root ++ [ignoreFileName]) with
      | some (.file content) => .ok content
      | some _ => .error .isADirectory
      | none => .error .notFound :=
  FileTree.read_concat regular.root_named regular.grounded
    (FileTree.isEntryName_of_isName isName_ignoreFileName) fun target => regular.notLink _ target

/-- **The rules depend on nothing but the ignore file.** -/
theorem filter_congr {place : Path}
    (same : t.read (place.child ignoreFileName) = t'.read (place.child ignoreFileName))
    (o : Options) : filter t place o = filter t' place o := by
  rw [filter, filter, ignoreLines, ignoreLines, FileTree.readText, FileTree.readText, same]

theorem filter_of_node (o : Options) (regular : Regular t root) (regular' : Regular t' root)
    (same : t.node? (root ++ [ignoreFileName]) = t'.node? (root ++ [ignoreFileName])) :
    filter t ⟨1, root⟩ o = filter t' ⟨1, root⟩ o := by
  refine filter_congr ?_ o
  rw [read_ignoreFile regular, read_ignoreFile regular', same]

/-- The ignore file is no file that is scanned. -/
theorem ne_ignoreFile (regular : Regular t root) (visits : Visits t f root [] names)
    (supported : Language.isSupported (Language.fileType (Path.toText ⟨1, root ++ names⟩)) = true) :
    names ≠ [ignoreFileName] := by
  rintro rfl
  have type : Language.fileType (Path.toText ⟨1, root ++ [ignoreFileName]⟩) =
      Language.fileTypeOfName ignoreFileName := by
    rw [Language.fileType, if_neg (by simpa using Path.toText_ne_nil _),
      Path.ofText_toText (visits.wellFormed regular), Path.name, List.getLastD_concat]
  rw [type] at supported
  revert supported
  decide +kernel

end CodeAtlas.Workspace
