/-
# Proofs.Store.Describes -- corpora that describe a workspace

A corpus *describes* a workspace (`Describes`) when it is compact, the store can keep all its
groups, and they are the groups found in the files of the walk -- as far as groups are kept at all,
since the place of a group is not saved (`settled`).  A scan gives such a corpus
(`exists_describes`), and it describes every tree that differs in the store only
(`Describes.congr`).

An edit changes the groups of one file.  A new scan of that file takes them out of the corpus by its
path and puts the new ones in, and what comes out describes the edited workspace
(`Describes.replaceFile`).
-/
import CodeAtlas.Proofs.Store.Files
import CodeAtlas.Proofs.Workspace.Scan

namespace CodeAtlas.Store

set_option autoImplicit false

open FileTree (Regular)
open Scan (Found)
open Workspace (Filter Options Visits foundIn)

variable {s : Store} {o : Options} {root : Place} {t t' : FileTree} {f : Filter} {c : Corpus}
  {file : Path} {names : List Text}

/-! ## Groups that come back as they were -/

/-- The group as it is after it has been saved and loaded, if nothing but its place changes. -/
def settled (g : Group) : Group := { g with place := loadedPlace g.functionality }

/-- The store keeps the group and gives it back as it was, but for its place. -/
structure Settles (s : Store) (g : Group) : Prop where
  keepable : Keepable g
  kept : s.kept g = settled g

theorem Settles.settled {g : Group} (settles : Settles s g) : Settles s (settled g) where
  keepable := ⟨settles.keepable.name, settles.keepable.path, settles.keepable.lines,
    settles.keepable.readable, settles.keepable.room⟩
  kept := settles.kept

/-- There is room for the lines of a file. -/
def FitsRoom (content : Bytes) : Prop :=
  (Workspace.linesOf content).length < LineRanges.roomLimit

/-- There is room for every file that has fewer bytes. -/
theorem fitsRoom_of_length {content : Bytes} (few : content.length + 1 < LineRanges.roomLimit) :
    FitsRoom content :=
  (Workspace.length_linesOf_le content).trans_lt few

/-- **The groups of a file come back as they were**, if its path is made of names. -/
theorem settles_of_found (slashes : s.workspace.root = 1) {parts : List Text}
    (wellFormed : Path.WellFormed ⟨1, parts⟩) (names : ∀ name ∈ parts, name ≠ "..")
    {content : Bytes} (fits : FitsRoom content) {g : Group}
    (found : Found (Path.toText ⟨1, parts⟩) (Workspace.linesOf content).length g) :
    Settles s g := by
  obtain ⟨first, last, begins, forward, ends, lines⟩ := found.run
  have path : Path.ofText g.filePath = ⟨1, parts⟩ := by
    rw [found.filePath, Path.ofText_toText wellFormed]
  have small : last < LineRanges.roomLimit := by
    rw [FitsRoom] at fits
    omega
  refine ⟨⟨found.name, by rw [path]; rfl, ?_, fun n member => ?_, ?_⟩, ?_⟩
  · rw [lines, LineRanges.span_eq_cons forward]
    exact List.cons_ne_nil _ _
  · rw [lines, LineRanges.mem_span] at member
    exact LineRanges.readable_of_lt (by omega) (by omega)
  · rw [lines, LineRanges.length_span]
    omega
  · have normal : (Path.mk 1 parts).normalize = ⟨1, parts⟩ := Path.normalize_of_names names
    rw [kept, path, normal, slashes, lines, LineRanges.sorted_span, ← lines, ← found.filePath,
      settled]

/-! ## Corpora that describe a workspace -/

/-- **The corpus describes the workspace**: it holds what a scan finds in it. -/
structure Describes (s : Store) (o : Options) (root : Place) (t : FileTree) (c : Corpus) :
    Prop where
  compact : c.Compact
  settles : ∀ x ∈ c.tagged, x.1 ≠ [] ∧ Settles s x.2
  found : ∃ f fs, Workspace.filter t ⟨1, root⟩ o = .ok f ∧ Workspace.files t f ⟨1, root⟩ = .ok fs ∧
    (c.tagged.map (Prod.map id settled)).Perm ((fs.flatMap (foundIn t)).map (Prod.map id settled))

theorem Describes.of_mem (describes : Describes s o root t c) {e : Text × List Group}
    (member : e ∈ c) : e.1 ≠ [] ∧ ∀ g ∈ e.2, Settles s g := by
  have each : ∀ g ∈ e.2, e.1 ≠ [] ∧ Settles s g := fun g inside =>
    describes.settles (e.1, g) (Corpus.mem_tagged.mpr ⟨e, member, rfl, inside⟩)
  obtain ⟨g, inside⟩ := List.exists_mem_of_ne_nil _ (describes.compact.solid e member)
  exact ⟨(each g inside).1, fun g inside => (each g inside).2⟩

/-- There is room for the lines of every file of the workspace whose type is supported, the store
apart. -/
def Fits (t : FileTree) (root : Place) : Prop :=
  ∀ names content, names.head? ≠ some storeName →
    Language.isSupported (Language.fileType (Path.toText ⟨1, root ++ names⟩)) = true →
    t.node? (root ++ names) = some (.file content) → FitsRoom content

theorem fits_of_nodes (each : ∀ e ∈ t.nodes, ∀ content, e.2 = .file content → FitsRoom content) :
    Fits t root := by
  intro names content _ _ node
  by_cases top : root ++ names = []
  · rw [top, FileTree.node?_nil] at node
    cases node
  · exact each _ (FileTree.mem_nodes top node) content rfl

/-- The directory of the store is no file. -/
def NoStoreFile (t : FileTree) (root : Place) : Prop :=
  ∀ content, t.node? (root ++ [storeName]) ≠ some (.file content)

theorem skips_storeName (f : Filter) : f.skips storeName = true := by
  rw [Filter.skips, Bool.or_eq_true]
  exact .inr (by decide)

theorem type_ne_nil {fileType : Text} (supported : Language.isSupported fileType = true) :
    fileType ≠ [] := by
  rintro rfl
  revert supported
  decide +kernel

/-- **A group of a visited file comes back as it was.** -/
theorem settles_of_mem (slashes : s.workspace.root = 1) (regular : t.Regular root)
    (fits : Fits t root) (noFile : NoStoreFile t root) (visits : Visits t f root [] names)
    {x : Text × Group} (member : x ∈ foundIn t ⟨1, root ++ names⟩) : x.1 ≠ [] ∧ Settles s x.2 := by
  obtain ⟨type, supported, content, read, found⟩ := Workspace.mem_foundIn member
  obtain ⟨content', node, read', -⟩ := visits.exists_read regular
  rw [read'] at read
  cases read
  refine ⟨type_ne_nil supported, settles_of_found slashes (visits.wellFormed regular) ?_ ?_ found⟩
  · exact fun name inside => (regular.names names (by rw [node]; simp) name inside).ne_dots
  · exact fits names _ (visits.head?_ne noFile (skips_storeName f)) (type ▸ supported) node

/-- **A scan gives a corpus that describes the workspace.** -/
theorem exists_describes (slashes : s.workspace.root = 1) (regular : t.Regular root)
    (fits : Fits t root) (noFile : NoStoreFile t root)
    (filtered : Workspace.filter t ⟨1, root⟩ o = .ok f) :
    ∃ c, Workspace.scan t ⟨1, root⟩ o = .ok c ∧ Describes s o root t c := by
  obtain ⟨fs, c, listed, scanned, compact, found⟩ := Workspace.exists_scan regular filtered
  refine ⟨c, scanned, compact, fun x member => ?_, f, fs, filtered, listed, found.map _⟩
  obtain ⟨file, walked, here⟩ := List.mem_flatMap.mp (found.mem_iff.mp member)
  obtain ⟨l, is, -, members⟩ := Workspace.files_spec f regular
  obtain rfl := Except.ok.inj (listed.symm.trans is)
  obtain ⟨names, visits, rfl⟩ := (members file).mp walked
  exact settles_of_mem slashes regular fits noFile visits here

/-- **What is below the store does not matter.** -/
theorem Describes.congr (describes : Describes s o root t c) (regular : t.Regular root)
    (regular' : t'.Regular root) (noFile : NoStoreFile t root) (noFile' : NoStoreFile t' root)
    (outside : ∀ names, names.head? ≠ some storeName →
      t.node? (root ++ names) = t'.node? (root ++ names)) : Describes s o root t' c := by
  obtain ⟨compact, settles, f, fs, filtered, listed, found⟩ := describes
  have alike : Workspace.Alike storeName root t t' :=
    ⟨fun names away => congrArg _ (outside names away), noFile, noFile'⟩
  obtain ⟨fs', listed', -, members'⟩ := Workspace.files_spec f regular'
  have perm := Workspace.files_perm regular regular' alike (skips_storeName f) listed listed'
  refine ⟨compact, settles, f, fs', ?_, listed', found.trans (List.Perm.map _ ?_)⟩
  · rw [← filtered]
    exact (Workspace.filter_of_node o regular regular' (outside _ (by decide))).symm
  · refine (perm.flatMap_right _).trans (List.Perm.of_eq (List.flatMap_congr fun file member => ?_))
    obtain ⟨names, visits', rfl⟩ := (members' file).mp member
    have visits := visits'.alike alike.symm (skips_storeName f)
    exact Workspace.foundIn_of_node regular regular' visits visits'
      (outside names (visits.head?_ne noFile (skips_storeName f)))

theorem Describes.perm {c' : Corpus} (describes : Describes s o root t c)
    (describes' : Describes s o root t c') :
    (c.tagged.map (Prod.map id settled)).Perm (c'.tagged.map (Prod.map id settled)) := by
  obtain ⟨f, fs, filtered, listed, found⟩ := describes.found
  obtain ⟨f', fs', filtered', listed', found'⟩ := describes'.found
  obtain rfl := Except.ok.inj (filtered.symm.trans filtered')
  obtain rfl := Except.ok.inj (listed.symm.trans listed')
  exact found.trans found'.symm

/-- The types of a corpus that describes a workspace are those of the groups found in it. -/
theorem Describes.mem_keys_iff {fileType : Text} (describes : Describes s o root t c) :
    fileType ∈ c.keys ↔ ∃ f fs, Workspace.filter t ⟨1, root⟩ o = .ok f ∧
      Workspace.files t f ⟨1, root⟩ = .ok fs ∧
      ∃ file ∈ fs, ∃ g, (fileType, g) ∈ foundIn t file := by
  obtain ⟨f, fs, filtered, listed, found⟩ := describes.found
  have types (xs : List (Text × Group)) :
      fileType ∈ (xs.map (Prod.map id settled)).map Prod.fst ↔ ∃ g, (fileType, g) ∈ xs := by
    simp
  have tagged : fileType ∈ c.keys ↔ ∃ g, (fileType, g) ∈ c.tagged := by
    rw [Entries.keys, List.mem_map]
    constructor
    · rintro ⟨e, member, rfl⟩
      obtain ⟨g, inside⟩ := List.exists_mem_of_ne_nil _ (describes.compact.solid e member)
      exact ⟨g, Corpus.mem_tagged.mpr ⟨e, member, rfl, inside⟩⟩
    · rintro ⟨g, inside⟩
      obtain ⟨e, member, is, -⟩ := Corpus.mem_tagged.mp inside
      exact ⟨e, member, is⟩
  rw [tagged, ← types, (found.map Prod.fst).mem_iff, types]
  constructor
  · rintro ⟨g, inside⟩
    obtain ⟨file, walked, here⟩ := List.mem_flatMap.mp inside
    exact ⟨f, fs, filtered, listed, file, walked, g, here⟩
  · rintro ⟨f', fs', filtered', listed', file, walked, g, here⟩
    obtain rfl := Except.ok.inj (filtered.symm.trans filtered')
    obtain rfl := Except.ok.inj (listed.symm.trans listed')
    exact ⟨g, List.mem_flatMap.mpr ⟨file, walked, here⟩⟩

/-! ## After loading -/

/-- The corpus as it is after it has been saved and loaded. -/
def settledCorpus (c : Corpus) : Corpus := c.map fun e => (e.1, e.2.map settled)

theorem tagged_settledCorpus (c : Corpus) :
    (settledCorpus c).tagged = c.tagged.map (Prod.map id settled) :=
  c.tagged_map settled

theorem compact_settledCorpus (compact : c.Compact) : (settledCorpus c).Compact := by
  constructor
  · rw [settledCorpus, Entries.keys_map]
    exact compact.nodup
  · intro e member
    obtain ⟨e, inside, rfl⟩ := List.mem_map.mp member
    simpa using compact.solid e inside

theorem Describes.keepableCorpus (describes : Describes s o root t c) : KeepableCorpus c :=
  ⟨describes.compact.nodup, fun _ member => (describes.of_mem member).1,
    fun _ member g inside => ((describes.of_mem member).2 g inside).keepable⟩

theorem Describes.keptCorpus (describes : Describes s o root t c) :
    s.keptCorpus c = settledCorpus c := by
  have all : c.filter (!·.2.isEmpty) = c :=
    List.filter_eq_self.mpr fun _ member => by simpa using describes.compact.solid _ member
  rw [Store.keptCorpus, all, settledCorpus]
  refine List.map_congr_left fun _ member => ?_
  rw [List.map_congr_left fun g inside => ((describes.of_mem member).2 g inside).kept]

/-! ## One edit -/

/-- What stands outside of the store stands at no place in it. -/
theorem ne_of_outside (outside : names.head? ≠ some storeName) (rest : List Text) :
    root ++ ([storeName] ++ rest) ≠ root ++ names := by
  intro same
  rw [← List.append_cancel_left same] at outside
  exact outside rfl

/-- An edit changes no more than the content of one file, and none in the store. -/
theorem alike_edit (regular : t.Regular root) (noFile : NoStoreFile t root)
    (visits : Visits t f root [] names) (content : Bytes) :
    Workspace.Alike storeName root t (t.put (root ++ names) (.file content)) := by
  obtain ⟨old, node, -⟩ := visits.exists_read regular
  have some_ : root ++ names ≠ [] := by simp [visits.ne_nil]
  refine ⟨fun names' _ => ?_, noFile, fun content' => ?_⟩
  · rw [FileTree.node?_put t some_]
    split
    · rename_i same
      rw [same, node]
      rfl
    · rfl
  · have other : root ++ [storeName] ≠ root ++ names :=
      ne_of_outside (visits.head?_ne noFile (skips_storeName f)) []
    rw [FileTree.node?_put_of_ne t some_ _ other]
    exact noFile content'

theorem regular_edit (regular : t.Regular root) (visits : Visits t f root [] names)
    (content : Bytes) : (t.put (root ++ names) (.file content)).Regular root := by
  obtain ⟨old, node, -⟩ := visits.exists_read regular
  have all := regular.names names (by rw [node]; simp)
  exact regular.put visits.ne_nil (fun name member => all name (List.mem_append_right _ member))
    (by rintro target ⟨⟩)

theorem fits_edit (visits : Visits t f root [] names) (fits : Fits t root) {content : Bytes}
    (room : FitsRoom content) : Fits (t.put (root ++ names) (.file content)) root := by
  intro names' content' outside supported node
  rw [FileTree.node?_put t (by simp [visits.ne_nil])] at node
  split at node
  · cases node
    exact room
  · exact fits names' content' outside supported node

/-- **The groups that are found after an edit** are those of the file itself, and of the other files
those that were found before. -/
theorem found_edit (regular : t.Regular root) (noFile : NoStoreFile t root)
    (visits : Visits t f root [] names) (content : Bytes) {fs fs' : List Path}
    (listed : Workspace.files t f ⟨1, root⟩ = .ok fs)
    (listed' : Workspace.files (t.put (root ++ names) (.file content)) f ⟨1, root⟩ = .ok fs') :
    (fs'.flatMap (foundIn (t.put (root ++ names) (.file content)))).Perm
      ((fs.flatMap (foundIn t)).filter (·.2.filePath != Path.toText ⟨1, root ++ names⟩) ++
        foundIn (t.put (root ++ names) (.file content)) ⟨1, root ++ names⟩) := by
  have alike := alike_edit regular noFile visits content
  have regular' := regular_edit regular visits content
  obtain ⟨l, is, nodup, members⟩ := Workspace.files_spec f regular
  obtain rfl := Except.ok.inj (listed.symm.trans is)
  have member : (⟨1, root ++ names⟩ : Path) ∈ fs := (members _).mpr ⟨names, visits, rfl⟩
  have wellFormed : ∀ file ∈ fs, Path.WellFormed file := by
    intro file walked
    obtain ⟨names', visits', rfl⟩ := (members file).mp walked
    exact visits'.wellFormed regular
  have others : (fs.erase ⟨1, root ++ names⟩).flatMap
      (foundIn (t.put (root ++ names) (.file content))) =
      (fs.erase ⟨1, root ++ names⟩).flatMap (foundIn t) := by
    refine List.flatMap_congr fun file walked => ?_
    obtain ⟨different, inside⟩ := nodup.mem_erase_iff.mp walked
    obtain ⟨names', visits', rfl⟩ := (members file).mp inside
    have other : root ++ names' ≠ root ++ names := fun same => different (congrArg _ same)
    refine Workspace.foundIn_of_node regular' regular
      (visits'.alike alike (skips_storeName f)) visits' ?_
    rw [FileTree.node?_put_of_ne t (by simp [visits.ne_nil]) _ other]
  have walk := Workspace.files_perm regular regular' alike (skips_storeName f) listed listed'
  have split := (List.perm_cons_erase member).flatMap_right
    (foundIn (t.put (root ++ names) (.file content)))
  rw [List.flatMap_cons, others] at split
  have rest := Workspace.filter_flatMap_foundIn (t := t) nodup wellFormed member
  exact (walk.symm.flatMap_right _).trans (split.trans (List.perm_append_comm.trans
    (rest.symm.append_right _)))

/-- **A new scan of the edited file brings the loaded corpus up to date.** -/
theorem Describes.replaceFile (describes : Describes s o root t c) (slashes : s.workspace.root = 1)
    (regular : t.Regular root) (fits : Fits t root) (noFile : NoStoreFile t root)
    (filtered : Workspace.filter t ⟨1, root⟩ o = .ok f) (visits : Visits t f root [] names)
    (supported : Language.isSupported (Language.fileType (Path.toText ⟨1, root ++ names⟩)) = true)
    {content : Bytes} (room : FitsRoom content) {gs : List Group}
    (scanned : Workspace.scanFile (t.put (root ++ names) (.file content)) ⟨1, root ++ names⟩
      (Path.toText ⟨1, root ++ names⟩) none = .ok gs) :
    Describes s o root (t.put (root ++ names) (.file content))
      ((settledCorpus c).replaceFile (Path.toText ⟨1, root ++ names⟩)
        (Language.fileType (Path.toText ⟨1, root ++ names⟩)) gs) := by
  obtain ⟨compact, settles, f', fs, filtered', listed, found⟩ := describes
  obtain rfl := Except.ok.inj (filtered'.symm.trans filtered)
  have alike := alike_edit regular noFile visits content
  have regular' := regular_edit regular visits content
  have visits' := visits.alike alike (skips_storeName f')
  have own := (Workspace.foundIn_eq scanned).2
  rw [if_pos supported] at own
  have perm := Corpus.tagged_replaceFile (settledCorpus c) (Path.toText ⟨1, root ++ names⟩)
    (Language.fileType (Path.toText ⟨1, root ++ names⟩)) gs
  rw [← own, tagged_settledCorpus] at perm
  obtain ⟨fs', listed', -⟩ := Workspace.files_spec f' regular'
  refine ⟨Corpus.compact_replaceFile (compact_settledCorpus compact).nodup _ _ _, fun x member => ?_,
    f', fs', ?_, listed', ?_⟩
  · rcases List.mem_append.mp (perm.mem_iff.mp member) with old | new
    · obtain ⟨x, known, rfl⟩ := List.mem_map.mp (List.mem_filter.mp old).1
      exact ⟨(settles x known).1, (settles x known).2.settled⟩
    · exact settles_of_mem slashes regular' (fits_edit visits fits room) alike.noFile' visits' new
  · have ignored : root ++ [Workspace.ignoreFileName] ≠ root ++ names := fun same =>
      Workspace.ne_ignoreFile regular visits supported (List.append_cancel_left same).symm
    rw [← filtered]
    refine Workspace.filter_of_node o regular' regular ?_
    rw [FileTree.node?_put_of_ne t (by simp [visits.ne_nil]) _ ignored]
  · -- Settled groups are compared, and the path that decides what is taken out is not touched.
    have settle : ∀ xs : List (Text × Group),
        ((xs.map (Prod.map id settled)).filter
          (·.2.filePath != Path.toText ⟨1, root ++ names⟩)).map (Prod.map id settled) =
        (xs.filter (·.2.filePath != Path.toText ⟨1, root ++ names⟩)).map (Prod.map id settled) := by
      intro xs
      rw [List.filter_map, List.map_map]
      rfl
    have old := (found.filter (·.2.filePath != Path.toText ⟨1, root ++ names⟩)).map
      (Prod.map id settled)
    rw [settle] at old
    refine (perm.map _).trans ?_
    rw [List.map_append, settle]
    rw [settle] at old
    refine (old.append_right _).trans ?_
    rw [← List.map_append]
    exact (found_edit regular noFile visits content listed listed').symm.map _

end CodeAtlas.Store
