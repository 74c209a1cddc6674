/-
# Proofs.Store.Save -- what a save does to the files

A save that ends well has made the directory and written the two files, one after the other
(`perform_save`).  When their paths lead to two different places, both can be read afterwards, and
what is read is what was written (`read_save`).

In a workspace without links all places are known beforehand.  There a save ends well unless
something of another kind stands in the way, and it changes nothing but the store
(`perform_save_of_regular`).
-/
import CodeAtlas.Proofs.FileTree.Grounded
import CodeAtlas.Store.Files

namespace CodeAtlas.Store

set_option autoImplicit false

variable {s : Store} {t t' : FileTree} {c : Corpus}

/-! ## Any workspace -/

theorem perform_save {index : Hierarchy.Index} :
    (s.save c).perform t = (.ok index, t') ↔ index = Hierarchy.Index.ofCorpus c ∧
      ∃ t₁ t₂, t.makeDirectories (s.here ++ s.directory) = .ok t₁ ∧
        t₁.writeText (s.here ++ s.groupsPath) (s.groupsText c) = .ok t₂ ∧
        t₂.writeText (s.here ++ s.indexPath) (indexText (Hierarchy.Index.ofCorpus c)) = .ok t' := by
  rw [save]
  simp only [FileTree.Script.perform_bind, FileTree.Script.perform_change,
    FileTree.Script.perform_pure]
  constructor
  · rintro ⟨⟨⟩, t₁, made, ⟨⟩, t₂, groups, ⟨⟩, t₃, saved, rfl, rfl⟩
    exact ⟨rfl, t₁, t₂, made, groups, saved⟩
  · rintro ⟨rfl, t₁, t₂, made, groups, saved⟩
    exact ⟨(), t₁, made, (), t₂, groups, (), t', saved, rfl, rfl⟩

/-- **After a save both files can be read**, when their paths lead to two different places. -/
theorem read_save {index : Hierarchy.Index} {p q : Place}
    (saved : (s.save c).perform t = (.ok index, t'))
    (groupsAt : t'.locate (s.here ++ s.groupsPath) = .ok p)
    (indexAt : t'.locate (s.here ++ s.indexPath) = .ok q) (different : p ≠ q) :
    t'.read (s.here ++ s.groupsPath) = .ok (Text.encode (s.groupsText c)) ∧
      t'.read (s.here ++ s.indexPath) =
        .ok (Text.encode (indexText (Hierarchy.Index.ofCorpus c))) := by
  obtain ⟨-, t₁, t₂, -, groups, index_⟩ := perform_save.mp saved
  obtain ⟨place, first⟩ := FileTree.exists_written groups
  obtain ⟨place', second⟩ := FileTree.exists_written index_
  obtain rfl := first.eq_of_locate second.keeps groupsAt
  obtain rfl := second.eq_of_locate (FileTree.Keeps.refl t') indexAt
  refine ⟨FileTree.read_of_locate groupsAt ?_, FileTree.read_of_locate indexAt second.node⟩
  rw [second.tree, FileTree.node?_put_of_ne _ second.free.ne_nil _ different, first.node]

/-! ## Workspaces without links -/

def storeName : Text := ".groupcode"

def groupsName : Text := "codegroups.json"

def indexName : Text := "functionalities.json"

theorem isName_storeName : Path.IsName storeName := by decide

theorem isName_groupsName : Path.IsName groupsName := by decide

theorem isName_indexName : Path.IsName indexName := by decide

/-- The place of the store in a workspace. -/
def storePlace (root : Place) : Place := root ++ [storeName]

def groupsPlace (root : Place) : Place := storePlace root ++ [groupsName]

def indexPlace (root : Place) : Place := storePlace root ++ [indexName]

theorem groupsPlace_ne_indexPlace (root : Place) : groupsPlace root ≠ indexPlace root := by
  intro same
  have names := List.append_cancel_left same
  revert names
  decide

theorem ne_storePlace {root : Place} (name : Text) :
    storePlace root ++ [name] ≠ storePlace root := by simp

section Real

variable {slashes : Nat} {root : Place} (real : s.workspace = ⟨slashes + 1, root⟩)

include real

theorem append_directory : s.here ++ s.directory = ⟨slashes + 1, storePlace root⟩ := by
  rw [directory, real, Path.append_of_isAbsolute _ rfl]
  rfl

theorem append_groupsPath : s.here ++ s.groupsPath = ⟨slashes + 1, groupsPlace root⟩ := by
  rw [groupsPath, directory, real, Path.append_of_isAbsolute _ rfl]
  rfl

theorem append_indexPath : s.here ++ s.indexPath = ⟨slashes + 1, indexPlace root⟩ := by
  rw [indexPath, directory, real, Path.append_of_isAbsolute _ rfl]
  rfl

end Real

/-- The store before a save that can be done: its directory is there or can be made, and no
directory stands where its files go. -/
structure Ready (t : FileTree) (root : Place) : Prop where
  directory : t.node? (storePlace root) = some .directory ∨ t.node? (storePlace root) = none
  groups : t.node? (groupsPlace root) ≠ some .directory
  index : t.node? (indexPlace root) ≠ some .directory

/-- The tree with the directory of the store. -/
def withStore (t : FileTree) (root : Place) : FileTree :=
  if t.node? (storePlace root) = none then t.put (storePlace root) .directory else t

/-- The tree with the files of the store. -/
def withFiles (t : FileTree) (root : Place) (groups index : Text) : FileTree :=
  ((withStore t root).put (groupsPlace root) (.file (Text.encode groups))).put (indexPlace root)
    (.file (Text.encode index))

variable {slashes : Nat} {root : Place} {groups index : Text}

section Nodes

variable {p : Place}

theorem node?_withStore (directory : t.node? (storePlace root) = some .directory ∨
    t.node? (storePlace root) = none) :
    (withStore t root).node? p = if p = storePlace root then some .directory else t.node? p := by
  rw [withStore]
  rcases directory with there | missing
  · rw [if_neg (by simp [there])]
    split
    · rename_i here
      rw [here, there]
    · rfl
  · rw [if_pos missing, FileTree.node?_put t (by simp [storePlace])]

theorem node?_withFiles (ready : Ready t root) :
    (withFiles t root groups index).node? p =
      if p = indexPlace root then some (.file (Text.encode index))
      else if p = groupsPlace root then some (.file (Text.encode groups))
      else if p = storePlace root then some .directory
      else t.node? p := by
  rw [withFiles, FileTree.node?_put _ (by simp [indexPlace]),
    FileTree.node?_put _ (by simp [groupsPlace]), node?_withStore ready.directory]

/-- The directory and the files of the store are there after a save. -/
theorem withFiles_storePlace (ready : Ready t root) :
    (withFiles t root groups index).node? (storePlace root) = some .directory := by
  rw [node?_withFiles ready, indexPlace, groupsPlace, if_neg (ne_storePlace _).symm,
    if_neg (ne_storePlace _).symm, if_pos rfl]

theorem withFiles_groupsPlace (ready : Ready t root) :
    (withFiles t root groups index).node? (groupsPlace root) =
      some (.file (Text.encode groups)) := by
  rw [node?_withFiles ready, if_neg (groupsPlace_ne_indexPlace root), if_pos rfl]

theorem withFiles_indexPlace (ready : Ready t root) :
    (withFiles t root groups index).node? (indexPlace root) = some (.file (Text.encode index)) := by
  rw [node?_withFiles ready, if_pos rfl]

end Nodes

theorem regular_withStore (regular : t.Regular root) : (withStore t root).Regular root := by
  rw [withStore]
  split
  · refine regular.put (by simp) (fun name member => ?_) (by rintro _ ⟨⟩)
    rw [List.mem_singleton.mp member]
    exact isName_storeName
  · exact regular

theorem regular_withFiles (regular : t.Regular root) :
    (withFiles t root groups index).Regular root := by
  have store := regular_withStore regular
  rw [withFiles, groupsPlace, indexPlace, storePlace, List.append_assoc, List.append_assoc]
  refine (store.put (by simp) ?_ (by rintro _ ⟨⟩)).put (by simp) ?_ (by rintro _ ⟨⟩)
  · simp [isName_storeName, isName_groupsName]
  · simp [isName_storeName, isName_indexName]

theorem grounded_storePlace (regular : t.Regular root)
    (directory : t.node? (storePlace root) = some .directory) :
    FileTree.Grounded t (storePlace root) :=
  regular.grounded.concat directory

theorem named_storePlace (regular : t.Regular root) : FileTree.Named (storePlace root) :=
  regular.root_named.concat (FileTree.isEntryName_of_isName isName_storeName)

theorem notLink_storePlace (regular : t.Regular root) (rest : Place) (target : Text) :
    t.node? (storePlace root ++ rest) ≠ some (.link target) := by
  rw [storePlace, List.append_assoc]
  exact regular.notLink _ target

theorem makeDirectories_storePlace (regular : t.Regular root) :
    t.makeDirectories ⟨slashes, storePlace root⟩ = .ok t' ↔
      (t.node? (storePlace root) = some .directory ∨ t.node? (storePlace root) = none) ∧
        t' = withStore t root := by
  rw [storePlace, FileTree.makeDirectories_concat_eq_ok_iff regular.root_named regular.grounded
    (FileTree.isEntryName_of_isName isName_storeName) fun target => regular.notLink _ target,
    withStore, storePlace]
  constructor
  · rintro (⟨there, rfl⟩ | ⟨missing, rfl⟩)
    · exact ⟨.inl there, by rw [if_neg (by simp [there])]⟩
    · exact ⟨.inr missing, by rw [if_pos missing]⟩
  · rintro ⟨there | missing, rfl⟩
    · exact .inl ⟨there, by rw [if_neg (by simp [there])]⟩
    · exact .inr ⟨missing, by rw [if_pos missing]⟩

theorem write_storePlace (regular : t.Regular root)
    (directory : t.node? (storePlace root) = some .directory) {name : Text}
    (name_ : Path.IsName name) {content : Bytes} :
    t.write ⟨slashes, storePlace root ++ [name]⟩ content = .ok t' ↔
      t.node? (storePlace root ++ [name]) ≠ some .directory ∧
        t' = t.put (storePlace root ++ [name]) (.file content) :=
  FileTree.write_concat_eq_ok_iff (named_storePlace regular) (grounded_storePlace regular directory)
    (FileTree.isEntryName_of_isName name_) (notLink_storePlace regular _)

/-- **A save in a workspace without links** ends well exactly when the store is ready for it, and
puts its directory and its two files into the tree. -/
theorem perform_save_of_regular (regular : t.Regular root)
    (real : s.workspace = ⟨slashes + 1, root⟩) {answer : Hierarchy.Index} :
    (s.save c).perform t = (.ok answer, t') ↔ answer = Hierarchy.Index.ofCorpus c ∧
      Ready t root ∧
      t' = withFiles t root (s.groupsText c) (indexText (Hierarchy.Index.ofCorpus c)) := by
  rw [perform_save, append_directory real, append_groupsPath real, append_indexPath real]
  refine and_congr_right fun _ => ?_
  simp only [makeDirectories_storePlace regular, FileTree.writeText]
  -- Both directions go through the same three trees.
  have stages (directory : t.node? (storePlace root) = some .directory ∨
      t.node? (storePlace root) = none) :
      (withStore t root).node? (storePlace root) = some .directory ∧
        ∀ name, (withStore t root).node? (storePlace root ++ [name]) =
          t.node? (storePlace root ++ [name]) := by
    refine ⟨by rw [node?_withStore directory, if_pos rfl], fun name => ?_⟩
    rw [node?_withStore directory, if_neg (ne_storePlace name)]
  have regular₁ := regular_withStore regular
  have regular₂ : ∀ n, (∀ target, n ≠ .link target) →
      ((withStore t root).put (groupsPlace root) n).Regular root := fun n notLink => by
    rw [groupsPlace, storePlace, List.append_assoc]
    exact regular₁.put (by simp) (by simp [isName_storeName, isName_groupsName]) notLink
  have index₂ : ∀ n, ((withStore t root).put (groupsPlace root) n).node? (indexPlace root) =
      (withStore t root).node? (indexPlace root) := fun n =>
    FileTree.node?_put_of_ne _ (by simp [groupsPlace]) n (groupsPlace_ne_indexPlace root).symm
  have store₂ : ∀ n, ((withStore t root).put (groupsPlace root) n).node? (storePlace root) =
      (withStore t root).node? (storePlace root) := fun n =>
    FileTree.node?_put_of_ne _ (by simp [groupsPlace]) n (ne_storePlace groupsName).symm
  constructor
  · rintro ⟨_, _, ⟨directory, rfl⟩, groups, index⟩
    obtain ⟨store, rest⟩ := stages directory
    obtain ⟨noGroups, rfl⟩ := (write_storePlace regular₁ store isName_groupsName).mp groups
    obtain ⟨noIndex, rfl⟩ := (write_storePlace (regular₂ _ (by rintro _ ⟨⟩))
      ((store₂ _).trans store) isName_indexName).mp index
    rw [rest] at noGroups
    rw [← indexPlace, index₂, indexPlace, rest] at noIndex
    exact ⟨⟨directory, noGroups, noIndex⟩, rfl⟩
  · rintro ⟨⟨directory, groups, index⟩, rfl⟩
    obtain ⟨store, rest⟩ := stages directory
    refine ⟨_, _, ⟨directory, rfl⟩,
      (write_storePlace regular₁ store isName_groupsName).mpr ⟨by rwa [rest], rfl⟩,
      (write_storePlace (regular₂ _ (by rintro _ ⟨⟩)) ((store₂ _).trans store)
        isName_indexName).mpr ⟨?_, rfl⟩⟩
    rw [← indexPlace, index₂, indexPlace, rest]
    exact index

/-- The paths of the store lead to its places. -/
theorem locate_withFiles (regular : t.Regular root) (ready : Ready t root) :
    (withFiles t root groups index).locate ⟨slashes, groupsPlace root⟩ = .ok (groupsPlace root) ∧
      (withFiles t root groups index).locate ⟨slashes, indexPlace root⟩ =
        .ok (indexPlace root) := by
  have regular' : (withFiles t root groups index).Regular root := regular_withFiles regular
  have store : (withFiles t root groups index).node? (storePlace root) = some .directory :=
    withFiles_storePlace ready
  have located (name : Text) (name_ : Path.IsName name) :
      (withFiles t root groups index).locate ⟨slashes, storePlace root ++ [name]⟩ =
        if ((withFiles t root groups index).node? (storePlace root ++ [name])).isSome then
          .ok (storePlace root ++ [name]) else .error (.absent name) :=
    FileTree.locateFrom_concat (named_storePlace regular') (grounded_storePlace regular' store)
      (FileTree.isEntryName_of_isName name_) (notLink_storePlace regular' _)
  constructor
  · rw [groupsPlace, located _ isName_groupsName, ← groupsPlace, withFiles_groupsPlace ready]
    rfl
  · rw [indexPlace, located _ isName_indexName, ← indexPlace, withFiles_indexPlace ready]
    rfl

/-- **A save in a workspace without links ends well**, and its files are where their paths lead. -/
theorem exists_saved (s : Store) (c : Corpus) (regular : t.Regular root) (ready : Ready t root)
    (real : s.workspace = ⟨slashes + 1, root⟩) :
    ∃ t', (s.save c).perform t = (.ok (Hierarchy.Index.ofCorpus c), t') ∧
      t'.locate (s.here ++ s.groupsPath) = .ok (groupsPlace root) ∧
      t'.locate (s.here ++ s.indexPath) = .ok (indexPlace root) := by
  obtain ⟨groupsAt, indexAt⟩ := locate_withFiles regular ready
  refine ⟨_, (perform_save_of_regular regular real).mpr ⟨rfl, ready, rfl⟩, ?_, ?_⟩
  · rw [append_groupsPath real]
    exact groupsAt
  · rw [append_indexPath real]
    exact indexAt

end CodeAtlas.Store
