/-
# Proofs.Store.Refresh -- the store is brought up to date

The store is *up to date* (`UpToDate`) when it holds a corpus that describes the workspace.  A scan
of the whole workspace makes it so (`upToDate_of_refresh`, `exists_refresh`), and so does a scan of
one file after it has been written anew (`UpToDate.exists_refreshFile`): loading gives the corpus
back, settled (`Stores.load`), and saving changes nothing that is scanned.

Two stores that are up to date with the same workspace hold the same, up to the order of types and
of groups (`agree_of_describes`).
-/
import CodeAtlas.Proofs.Hierarchy.Index
import CodeAtlas.Proofs.Store.Describes
import CodeAtlas.Store.Refresh

namespace CodeAtlas.Store

set_option autoImplicit false

open Workspace (Filter Options)

variable {s : Store} {o : Options} {root : Place} {t t' : FileTree} {c : Corpus} {file : Path}
  {names : List Text}

/-! ## The store between two scans -/

/-- The store holds the corpus. -/
structure Stores (s : Store) (root : Place) (t : FileTree) (c : Corpus) : Prop where
  directory : t.node? (storePlace root) = some .directory
  groups : t.node? (groupsPlace root) = some (.file (Text.encode (s.groupsText c)))
  index : t.node? (indexPlace root) =
    some (.file (Text.encode (indexText (Hierarchy.Index.ofCorpus c))))

/-- **The store is up to date**: it holds a corpus that describes the workspace. -/
structure UpToDate (s : Store) (o : Options) (root : Place) (t : FileTree) (c : Corpus) : Prop where
  regular : t.Regular root
  fits : Fits t root
  describes : Describes s o root t c
  stores : Stores s root t c

theorem noStoreFile_of_ready (ready : Ready t root) : NoStoreFile t root := by
  intro content node
  rw [← storePlace] at node
  rcases ready.directory with there | missing
  · rw [there] at node
    cases node
  · rw [missing] at node
    cases node

theorem Stores.ready (stores : Stores s root t c) : Ready t root :=
  ⟨.inl stores.directory, by rw [stores.groups]; simp, by rw [stores.index]; simp⟩

/-- What is put outside of the store leaves it as it is. -/
theorem Stores.put (stores : Stores s root t c) (solid : names ≠ [])
    (outside : names.head? ≠ some storeName) (n : FileNode) :
    Stores s root (t.put (root ++ names) n) c := by
  have same : ∀ rest, (t.put (root ++ names) n).node? (root ++ ([storeName] ++ rest)) =
      t.node? (root ++ ([storeName] ++ rest)) := fun rest =>
    FileTree.node?_put_of_ne t (by simp [solid]) n (ne_of_outside outside rest)
  refine ⟨(same []).trans stores.directory, ?_, ?_⟩
  · have groups := stores.groups
    rw [groupsPlace, storePlace, List.append_assoc] at groups ⊢
    rw [same, groups]
  · have index := stores.index
    rw [indexPlace, storePlace, List.append_assoc] at index ⊢
    rw [same, index]

/-- Outside of the store a save changes nothing. -/
theorem node?_withFiles_of_outside (ready : Ready t root) {groups index : Text}
    (outside : names.head? ≠ some storeName) :
    t.node? (root ++ names) = (withFiles t root groups index).node? (root ++ names) := by
  have other : ∀ rest, root ++ names ≠ root ++ ([storeName] ++ rest) := fun rest =>
    (ne_of_outside outside rest).symm
  have other' : root ++ names ≠ root ++ [storeName] := other []
  rw [node?_withFiles ready, indexPlace, groupsPlace, storePlace, List.append_assoc,
    List.append_assoc, if_neg (other _), if_neg (other _), if_neg other']

/-- For a walk the tree is the same after a save. -/
theorem alike_withFiles (ready : Ready t root) {groups index : Text} :
    Workspace.Alike storeName root t (withFiles t root groups index) := by
  refine ⟨fun names outside => congrArg _ (node?_withFiles_of_outside ready outside),
    noStoreFile_of_ready ready, fun content node => ?_⟩
  rw [← storePlace, withFiles_storePlace ready] at node
  cases node

/-- **After a save of a corpus that describes the workspace the store is up to date.** -/
theorem upToDate_withFiles (regular : t.Regular root) (fits : Fits t root) (ready : Ready t root)
    (describes : Describes s o root t c) :
    UpToDate s o root
      (withFiles t root (s.groupsText c) (indexText (Hierarchy.Index.ofCorpus c))) c := by
  refine ⟨regular_withFiles regular, fun names content outside supported node => ?_,
    describes.congr regular (regular_withFiles regular) (noStoreFile_of_ready ready)
      (alike_withFiles ready).noFile' fun names outside => node?_withFiles_of_outside ready outside,
    withFiles_storePlace ready, withFiles_groupsPlace ready, withFiles_indexPlace ready⟩
  exact fits names content outside supported ((node?_withFiles_of_outside ready outside).trans node)

/-- The files of the store can be read. -/
theorem Stores.read (stores : Stores s root t c) (regular : t.Regular root)
    (real : s.workspace = ⟨0 + 1, root⟩) :
    t.read (s.here ++ s.groupsPath) = .ok (Text.encode (s.groupsText c)) ∧
      t.read (s.here ++ s.indexPath) =
        .ok (Text.encode (indexText (Hierarchy.Index.ofCorpus c))) := by
  have named := named_storePlace regular
  have grounded := grounded_storePlace regular stores.directory
  constructor
  · rw [append_groupsPath real, groupsPlace, FileTree.read_concat named grounded
      (FileTree.isEntryName_of_isName isName_groupsName) (notLink_storePlace regular _),
      ← groupsPlace, stores.groups]
  · rw [append_indexPath real, indexPlace, FileTree.read_concat named grounded
      (FileTree.isEntryName_of_isName isName_indexName) (notLink_storePlace regular _),
      ← indexPlace, stores.index]

/-- **Loading gives the corpus back, settled**, even if it does not describe the workspace any more.
-/
theorem Stores.load (stores : Stores s root t' c) (regular : t'.Regular root)
    (describes : Describes s o root t c) (real : s.workspace = ⟨0 + 1, root⟩) :
    s.load t' = .ok (some (settledCorpus c)) := by
  have table := readTable_groups describes.compact.nodup (stores.read regular real).1
  rw [load_of_readTable (by rw [real]; rfl) describes.keepableCorpus table, describes.keptCorpus]

/-! ## What the files of the store say -/

/-- The two files of the store hold these records, type by type, and this index. -/
structure Holds (s : Store) (t : FileTree) (m : Entries (List Record)) (i : Hierarchy.Index) :
    Prop where
  groups : t.readText (s.here ++ s.groupsPath) =
    .ok (Json.write (.table (m.map fun e => (e.1, .list (e.2.map Record.toValue)))))
  index : t.readText (s.here ++ s.indexPath) = .ok (indexText i)

/-- **The files of the store agree in two trees**: the same types have the same records, up to their
order, and every path has the same entry in the index. -/
structure Agree (s : Store) (t t' : FileTree) (m m' : Entries (List Record))
    (i i' : Hierarchy.Index) : Prop where
  left : Holds s t m i
  right : Holds s t' m' i'
  types : m.keys.Nodup
  types' : m'.keys.Nodup
  records : ∀ fileType, Option.Rel List.Perm (m.get? fileType) (m'.get? fileType)
  paths : (Entries.keys i).Nodup
  paths' : (Entries.keys i').Nodup
  entries : ∀ path, Entries.get? i path = Entries.get? i' path

/-- **The files of a store hold one set of records.** -/
theorem Holds.records_unique {m m' : Entries (List Record)} {i i' : Hierarchy.Index}
    (holds : Holds s t m i) (holds' : Holds s t m' i') (distinct : m.keys.Nodup)
    (distinct' : m'.keys.Nodup) : m = m' := by
  have texts := Except.ok.inj (holds.groups.symm.trans holds'.groups)
  have read := Json.read_write (faithful_records distinct)
  rw [texts, Json.read_write (faithful_records distinct')] at read
  have members := Value.table.inj (Except.ok.inj read)
  have recordInj : Function.Injective Record.toValue := by
    rintro ⟨f, d, p, l⟩ ⟨f', d', p', l'⟩ same
    simpa [Record.toValue] using same
  refine (List.map_injective_iff.mpr ?_ members).symm
  rintro ⟨k, rs⟩ ⟨k', rs'⟩ same
  simp only [Prod.mk.injEq, Value.list.injEq] at same
  exact Prod.ext same.1 (List.map_injective_iff.mpr recordInj same.2)

theorem UpToDate.holds (upToDate : UpToDate s o root t c) (real : s.workspace = ⟨0 + 1, root⟩) :
    Holds s t (s.records c) (Hierarchy.Index.ofCorpus c) := by
  obtain ⟨groups, index⟩ := upToDate.stores.read upToDate.regular real
  have faithful := faithful_groupsTable s upToDate.describes.compact.nodup
  exact ⟨readText_of_read faithful.plain groups, readText_of_read (plain_toValue _) index⟩

/-- Two corpora that describe the same workspace are saved alike. -/
theorem agree_of_describes {c' : Corpus} (upToDate : UpToDate s o root t c)
    (upToDate' : UpToDate s o root t' c') (real : s.workspace = ⟨0 + 1, root⟩)
    (describes' : Describes s o root t c') :
    Agree s t t' (s.records c) (s.records c') (Hierarchy.Index.ofCorpus c)
      (Hierarchy.Index.ofCorpus c') := by
  have describes := upToDate.describes
  have perm := describes.perm describes'
  have keys : ∀ c : Corpus, c.keys.Nodup →
      (Entries.keys (c.map fun e => (e.1, e.2.map s.recordOf))).Nodup := fun c nodup => by
    rwa [Entries.keys_map]
  have left := records_of_keepable s describes.keepableCorpus
  have right := records_of_keepable s describes'.keepableCorpus
  refine ⟨upToDate.holds real, upToDate'.holds real, left ▸ keys c describes.compact.nodup,
    right ▸ keys c' describes'.compact.nodup, fun fileType => ?_,
    Hierarchy.Index.nodup_keys_ofCorpus c, Hierarchy.Index.nodup_keys_ofCorpus c',
    Hierarchy.Index.get?_ofCorpus_congr (f := settled) (fun _ => rfl) perm⟩
  have records : (c.tagged.map (Prod.map id s.recordOf)).Perm
      (c'.tagged.map (Prod.map id s.recordOf)) := by
    have settle : ∀ xs : List (Text × Group), (xs.map (Prod.map id settled)).map
        (Prod.map id s.recordOf) = xs.map (Prod.map id s.recordOf) := fun xs => List.map_map
    have records := perm.map (Prod.map id s.recordOf)
    rwa [settle, settle] at records
  have same := describes.compact.rel_get? describes'.compact s.recordOf records fileType
  rw [left, right, Entries.get?_map, Entries.get?_map]
  revert same
  rcases c.get? fileType with _ | gs <;> rcases c'.get? fileType with _ | gs'
  · exact fun _ => .none
  · rintro ⟨⟩
  · rintro ⟨⟩
  · rintro ⟨same⟩
    exact .some same

/-- Stores that agree have the same types. -/
theorem Agree.mem_keys_iff {o' : Options} {c' : Corpus} {m m' : Entries (List Record)}
    {i i' : Hierarchy.Index} (agree : Agree s t t' m m' i i') (upToDate : UpToDate s o root t c)
    (upToDate' : UpToDate s o' root t' c') (real : s.workspace = ⟨0 + 1, root⟩) (fileType : Text) :
    fileType ∈ c.keys ↔ fileType ∈ c'.keys := by
  have keys {o : Options} {t : FileTree} {c : Corpus} (upToDate : UpToDate s o root t c) :
      Entries.keys (s.records c) = c.keys := by
    rw [records_of_keepable s upToDate.describes.keepableCorpus, Entries.keys_map]
  obtain rfl := agree.left.records_unique (upToDate.holds real) agree.types
    (keys upToDate ▸ upToDate.describes.compact.nodup)
  obtain rfl := agree.right.records_unique (upToDate'.holds real) agree.types'
    (keys upToDate' ▸ upToDate'.describes.compact.nodup)
  rw [← keys upToDate, ← keys upToDate', ← not_iff_not, ← Entries.get?_eq_none_iff,
    ← Entries.get?_eq_none_iff]
  have same := agree.records fileType
  revert same
  rcases (s.records c).get? fileType with _ | rs <;>
    rcases (s.records c').get? fileType with _ | rs'
  · exact fun _ => Iff.rfl
  · rintro ⟨⟩
  · rintro ⟨⟩
  · exact fun _ => by simp

/-! ## Scanning again -/

theorem perform_refresh {answer : Corpus × Hierarchy.Index} :
    (s.refresh o).perform t = (.ok answer, t') ↔
      Workspace.scan t s.workspace o = .ok answer.1 ∧
        (s.save answer.1).perform t = (.ok answer.2, t') := by
  rw [refresh]
  simp only [FileTree.Script.perform_bind, FileTree.Script.perform_ask,
    FileTree.Script.perform_pure]
  constructor
  · rintro ⟨c, t₁, ⟨scanned, rfl⟩, index, t₂, saved, rfl, rfl⟩
    exact ⟨scanned, saved⟩
  · rintro ⟨scanned, saved⟩
    exact ⟨answer.1, t, ⟨scanned, rfl⟩, answer.2, t', saved, rfl, rfl⟩

theorem perform_refreshFile {answer : Corpus × Hierarchy.Index} :
    (s.refreshFile file).perform t = (.ok answer, t') ↔
      ∃ gs saved, Workspace.scanFile t file file.toText none = .ok gs ∧ s.load t = .ok saved ∧
        answer.1 = (saved.getD []).replaceFile file.toText (Language.fileType file.toText) gs ∧
        (s.save answer.1).perform t = (.ok answer.2, t') := by
  rw [refreshFile]
  simp only [FileTree.Script.perform_bind, FileTree.Script.perform_ask,
    FileTree.Script.perform_pure]
  constructor
  · rintro ⟨gs, t₁, ⟨scanned, rfl⟩, saved, t₂, ⟨loaded, rfl⟩, index, t₃, done, rfl, rfl⟩
    exact ⟨gs, saved, scanned, loaded, rfl, done⟩
  · rintro ⟨gs, saved, scanned, loaded, is, done⟩
    rw [is] at done
    exact ⟨gs, t, ⟨scanned, rfl⟩, saved, t, ⟨loaded, rfl⟩, answer.2, t', done, Prod.ext is.symm rfl,
      rfl⟩

/-- The file is one of those that a scan of the workspace reads. -/
def IsScanned (root : Place) (o : Options) (t : FileTree) (file : Path) : Prop :=
  ∃ f fs, Workspace.filter t ⟨1, root⟩ o = .ok f ∧ Workspace.files t f ⟨1, root⟩ = .ok fs ∧
    file ∈ fs ∧ Language.isSupported (Language.fileType file.toText) = true

/-- A save changes nothing about which files are scanned. -/
theorem isScanned_withFiles {groups index : Text} (scanned : IsScanned root o t file)
    (regular : t.Regular root) (ready : Ready t root) :
    IsScanned root o (withFiles t root groups index) file := by
  obtain ⟨f, fs, filtered, listed, walked, supported⟩ := scanned
  have regular' : (withFiles t root groups index).Regular root := regular_withFiles regular
  obtain ⟨fs', listed', -⟩ := Workspace.files_spec f regular'
  have perm := Workspace.files_perm regular regular' (alike_withFiles ready) (skips_storeName f)
    listed listed'
  refine ⟨f, fs', ?_, listed', perm.mem_iff.mp walked, supported⟩
  rw [← filtered]
  exact (Workspace.filter_of_node o regular regular'
    (node?_withFiles_of_outside ready (by decide))).symm

/-- **A scan of the workspace brings the store up to date.** -/
theorem upToDate_of_refresh (real : s.workspace = ⟨1, root⟩) (regular : t.Regular root)
    (fits : Fits t root) {answer : Corpus × Hierarchy.Index}
    (done : (s.refresh o).perform t = (.ok answer, t')) : UpToDate s o root t' answer.1 := by
  obtain ⟨scanned, saved⟩ := perform_refresh.mp done
  obtain ⟨-, ready, rfl⟩ := (perform_save_of_regular regular real).mp saved
  have filtered := scanned
  rw [real, Workspace.scan, FileTree.realPath_of_grounded regular.root_named regular.grounded,
    Run.ok_bind] at filtered
  obtain ⟨f, filtered, -⟩ := Run.bind_eq_ok_iff.mp filtered
  obtain ⟨c, is, describes⟩ := exists_describes (s := s) (by rw [real]) regular fits
    (noStoreFile_of_ready ready) filtered
  rw [real, is] at scanned
  obtain rfl := Except.ok.inj scanned
  exact upToDate_withFiles regular fits ready describes

/-- **A workspace that is ready can be scanned.** -/
theorem exists_refresh {f : Filter} (real : s.workspace = ⟨1, root⟩) (regular : t.Regular root)
    (fits : Fits t root) (ready : Ready t root)
    (filtered : Workspace.filter t ⟨1, root⟩ o = .ok f) :
    ∃ c, (s.refresh o).perform t = (.ok (c, Hierarchy.Index.ofCorpus c),
        withFiles t root (s.groupsText c) (indexText (Hierarchy.Index.ofCorpus c))) ∧
      Describes s o root t c := by
  obtain ⟨c, scanned, describes⟩ := exists_describes (s := s) (by rw [real]) regular fits
    (noStoreFile_of_ready ready) filtered
  refine ⟨c, perform_refresh.mpr ⟨?_,
    (perform_save_of_regular regular real).mpr ⟨rfl, ready, rfl⟩⟩, describes⟩
  rw [real]
  exact scanned

/-- **Another scan of the workspace** finds the store ready. -/
theorem UpToDate.exists_refresh (upToDate : UpToDate s o root t c)
    (real : s.workspace = ⟨1, root⟩) :
    ∃ answer t', (s.refresh o).perform t = (.ok answer, t') ∧ Describes s o root t answer.1 ∧
      UpToDate s o root t' answer.1 := by
  obtain ⟨f, -, filtered, -⟩ := upToDate.describes.found
  obtain ⟨c', refreshed, describes⟩ :=
    Store.exists_refresh real upToDate.regular upToDate.fits upToDate.stores.ready filtered
  exact ⟨_, _, refreshed, describes,
    upToDate_of_refresh real upToDate.regular upToDate.fits refreshed⟩

/-- **The store is up to date again** when a file that is scanned has been written anew and scanned
again, and both can be done. -/
theorem UpToDate.exists_refreshFile (upToDate : UpToDate s o root t c)
    (real : s.workspace = ⟨1, root⟩) (scanned : IsScanned root o t file) {content : Bytes}
    (room : FitsRoom content) :
    ∃ edited answer t', t.write file content = .ok edited ∧
      (s.refreshFile file).perform edited = (.ok answer, t') ∧ UpToDate s o root t' answer.1 := by
  obtain ⟨regular, fits, describes, stores⟩ := upToDate
  obtain ⟨f, fs, filtered, listed, walked, supported⟩ := scanned
  obtain ⟨l, is, -, members⟩ := Workspace.files_spec f regular
  obtain rfl := Except.ok.inj (listed.symm.trans is)
  obtain ⟨names, visits, rfl⟩ := (members file).mp walked
  obtain ⟨-, -, -, written⟩ := visits.exists_read regular
  have noFile := noStoreFile_of_ready stores.ready
  have regular' := regular_edit regular visits content
  have stores' := stores.put visits.ne_nil (visits.head?_ne noFile (skips_storeName f))
    (.file content)
  obtain ⟨gs, found, -⟩ := Workspace.exists_scanFile (t.put (root ++ names) (.file content))
    ⟨1, root ++ names⟩ (Path.toText ⟨1, root ++ names⟩)
  have describes' := describes.replaceFile (by rw [real]) regular fits noFile filtered visits
    supported room found
  obtain ⟨c', is⟩ : ∃ c', c' = (settledCorpus c).replaceFile (Path.toText ⟨1, root ++ names⟩)
    (Language.fileType (Path.toText ⟨1, root ++ names⟩)) gs := ⟨_, rfl⟩
  rw [← is] at describes'
  have saved := (perform_save_of_regular (c := c') regular' real).mpr ⟨rfl, stores'.ready, rfl⟩
  exact ⟨_, (c', Hierarchy.Index.ofCorpus c'), _, written content,
    perform_refreshFile.mpr ⟨gs, _, found, stores'.load regular' describes real, is, saved⟩,
    upToDate_withFiles regular' (fits_edit visits fits room) stores'.ready describes'⟩

end CodeAtlas.Store
