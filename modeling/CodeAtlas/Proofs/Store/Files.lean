/-
# Proofs.Store.Files -- a corpus that has been saved is loaded again

What a save leaves behind is read as it was written: the JSON of the records of every type, and the
JSON of the index (`readTable_of_read`).

Loading takes the records apart type by type (`load_of_listed`): the groups that are found again
are those with a name, a path and lines that can be read (`isRestored`).  Of a corpus that can be
kept this is every group (`load_of_readTable`).  The index is taken apart entry by entry
(`readIndex_toValue`).  Together they are the round trip, `load_save`.
-/
import Mathlib
import CodeAtlas.Proofs.Hierarchy.Index
import CodeAtlas.Proofs.Json.Printed
import CodeAtlas.Proofs.Store.Record
import CodeAtlas.Proofs.Store.Save
import CodeAtlas.Store.Files

namespace CodeAtlas.Store

set_option autoImplicit false

variable {s : Store} {t t' : FileTree} {c : Corpus}

/-! ## Reading a file of JSON -/

/-- A file with a written value in it has the text of that value. -/
theorem readText_of_read {p : Path} {v : Value} (plain : Json.Plain v)
    (content : t.read p = .ok (Text.encode (Json.write v))) :
    t.readText p = .ok (Json.write v) := by
  rw [FileTree.readText_of_read content, Json.withLineFeeds_write plain]

/-- A file with a written value in it is read as that value, if reading undoes writing. -/
theorem readTable_of_read {p : Path} {v : Value} (plain : Json.Plain v)
    (inverts : Json.read (Json.write v) = .ok v)
    (content : t.read p = .ok (Text.encode (Json.write v))) : readTable t p = .ok v.table? := by
  rw [readTable, readText_of_read plain content]
  simp only [inverts]

/-! ## The groups file -/

/-- The members of the groups file. -/
def groupsTable (s : Store) (c : Corpus) : Entries Value :=
  (s.records c).map fun e => (e.1, .list (e.2.map Record.toValue))

theorem faithful_record (r : Record) {depth : Nat} : Json.Faithful (depth + 1) r.toValue := by
  refine .table (by simp [Entries.keys]) fun m member => ?_
  simp only [List.mem_cons, List.not_mem_nil, or_false] at member
  rcases member with rfl | rfl | rfl | rfl <;> exact .text _

/-- The members of a groups file are written so that they are read back, whatever records it holds.
-/
theorem faithful_records {m : Entries (List Record)} (distinct : m.keys.Nodup) :
    Json.Faithful Json.depthLimit
      (.table (m.map fun e => (e.1, .list (e.2.map Record.toValue)))) := by
  refine .table (by rwa [Entries.keys_map]) fun e member => ?_
  obtain ⟨e, -, rfl⟩ := List.mem_map.mp member
  refine .list fun v inside => ?_
  obtain ⟨r, -, rfl⟩ := List.mem_map.mp inside
  exact faithful_record r

theorem faithful_groupsTable (s : Store) {c : Corpus} (distinct : c.keys.Nodup) :
    Json.Faithful Json.depthLimit (.table (s.groupsTable c)) := by
  refine faithful_records ?_
  rw [records, Entries.keys_map]
  exact distinct.sublist (List.filter_sublist.map Prod.fst)

theorem readTable_groups (distinct : c.keys.Nodup)
    (content : t.read (s.here ++ s.groupsPath) = .ok (Text.encode (s.groupsText c))) :
    readTable t (s.here ++ s.groupsPath) = .ok (some (s.groupsTable c)) :=
  have faithful := faithful_groupsTable s distinct
  readTable_of_read faithful.plain (Json.read_write faithful) content

/-- **The corpus that a store gives back**: the groups that it keeps, without empty types. -/
def keptCorpus (s : Store) (c : Corpus) : Corpus :=
  (c.filter (!·.2.isEmpty)).map fun e => (e.1, e.2.map s.kept)

/-- What a store needs of a corpus to give it back: types with names, and groups that it can keep.
-/
structure KeepableCorpus (c : Corpus) : Prop where
  distinct : c.keys.Nodup
  types : ∀ e ∈ c, e.1 ≠ []
  groups : ∀ e ∈ c, ∀ g ∈ e.2, Keepable g

/-- No group is left out of the records. -/
theorem records_of_keepable (s : Store) (keepable : KeepableCorpus c) :
    s.records c = c.map fun e => (e.1, e.2.map s.recordOf) := by
  have all : c.filter (!·.1.isEmpty) = c :=
    List.filter_eq_self.mpr fun e member => by simpa using keepable.types e member
  rw [records, all]
  refine List.map_congr_left fun e member => ?_
  rw [← List.filterMap_eq_map, List.filterMap_congr fun g inside =>
    s.record?_of_keepable (keepable.groups e member g inside)]
  rfl

/-- What can be written of a corpus and read without running out of room: different types, and
lines that are neither too long nor too many. -/
structure Writable (c : Corpus) : Prop where
  distinct : c.keys.Nodup
  brief : ∀ e ∈ c, ∀ g ∈ e.2, ∀ n ∈ g.lines, LineRanges.Brief n
  room : ∀ e ∈ c, ∀ g ∈ e.2, g.lines.length < LineRanges.roomLimit

/-- There is room for the lines that are read in the record of a group. -/
def IsListed (g : Group) : Prop :=
  LineRanges.read (LineRanges.encode g.lines) =
    .ok (LineRanges.decode (LineRanges.encode g.lines))

/-- Is there a record for a group? -/
def isRecorded (g : Group) : Bool := !g.functionality.isEmpty && !g.filePath.isEmpty

/-- Is there a group in the record again? -/
def isRestored (g : Group) : Bool :=
  isRecorded g && !(LineRanges.decode (LineRanges.encode g.lines)).isEmpty

/-- **What is loaded of a corpus** that has been saved. -/
def restoredCorpus (s : Store) (c : Corpus) : Corpus :=
  (Corpus.restrict (c.filter (!·.1.isEmpty)) isRestored).map fun e => (e.1, e.2.map s.restored)

theorem filterMap_record? (s : Store) (gs : List Group) :
    gs.filterMap s.record? = (gs.filter isRecorded).map s.recordOf := by
  have each : ∀ g, s.record? g = if isRecorded g then some (s.recordOf g) else none := fun g => by
    rw [record?, isRecorded]
    cases g.functionality.isEmpty <;> cases g.filePath.isEmpty <;> rfl
  induction gs with
  | nil => rfl
  | cons g gs ih =>
      rw [List.filterMap_cons, List.filter_cons, each, ih]
      cases isRecorded g <;> rfl

/-- **The records of a list of groups** are read as the groups that are found in them again. -/
theorem readRecords_records {gs : List Group} (listed : ∀ g ∈ gs, IsListed g) :
    s.readRecords ((gs.filterMap s.record?).map Record.toValue) =
      .ok ((gs.filter isRestored).map s.restored) := by
  have read : (((gs.filter isRecorded).map s.recordOf).map Record.toValue).mapM s.readRecord =
      .ok ((gs.filter isRecorded).map fun g =>
        if (LineRanges.decode (LineRanges.encode g.lines)).isEmpty then none
        else some (s.restored g)) := by
    rw [Run.mapM_eq_ok_iff, List.map_map, List.forall₂_map_left_iff, List.forall₂_map_right_iff,
      List.forall₂_same]
    intro g member
    obtain ⟨inside, recorded⟩ := List.mem_filter.mp member
    rw [isRecorded, Bool.and_eq_true] at recorded
    exact s.readRecord_recordOf (by simpa using recorded.1) (listed g inside)
  have found : ∀ l : List Group, ((l.filter isRecorded).map fun g =>
      if (LineRanges.decode (LineRanges.encode g.lines)).isEmpty then none
      else some (s.restored g)).filterMap id = (l.filter isRestored).map s.restored := by
    intro l
    have restored_ : isRestored = fun g =>
        !(LineRanges.decode (LineRanges.encode g.lines)).isEmpty && isRecorded g :=
      funext fun g => Bool.and_comm _ _
    rw [restored_, ← List.filter_filter]
    induction l.filter isRecorded with
    | nil => rfl
    | cons g rest ih =>
        rw [List.map_cons, List.filterMap_cons, List.filter_cons, ih]
        cases (LineRanges.decode (LineRanges.encode g.lines)).isEmpty <;> rfl
  rw [readRecords, filterMap_record?, read]
  exact congrArg Except.ok (found gs)

/-- **What is loaded** of a groups file that has been saved, when the lines of all groups that are
written can be listed again. -/
theorem load_of_listed (listed : ∀ e ∈ c, e.1 ≠ [] → ∀ g ∈ e.2, IsListed g)
    (table : readTable t (s.here ++ s.groupsPath) = .ok (some (s.groupsTable c))) :
    s.load t = .ok (some (s.restoredCorpus c)) := by
  have types : (s.groupsTable c).mapM s.loadType = .ok ((c.filter (!·.1.isEmpty)).map fun e =>
      if ((e.2.filter isRestored).map s.restored).isEmpty then none
      else some (e.1, (e.2.filter isRestored).map s.restored)) := by
    rw [groupsTable, records, List.map_map, Run.mapM_eq_ok_iff, List.forall₂_map_left_iff,
      List.forall₂_map_right_iff, List.forall₂_same]
    intro e member
    obtain ⟨inside, type⟩ := List.mem_filter.mp member
    rw [loadType]
    change (s.readRecords ((e.2.filterMap s.record?).map Record.toValue)).map _ = _
    rw [readRecords_records (listed e inside (by simpa using type))]
    rfl
  have kept : ∀ l : Corpus, (l.map fun e =>
      if ((e.2.filter isRestored).map s.restored).isEmpty then none
      else some (e.1, (e.2.filter isRestored).map s.restored)).filterMap id =
      (Corpus.restrict l isRestored).map fun e => (e.1, e.2.map s.restored) := by
    intro l
    rw [Corpus.restrict]
    induction l with
    | nil => rfl
    | cons e l ih =>
        rw [List.map_cons, List.filterMap_cons, ih, List.map_cons, List.filter_cons]
        cases e.2.filter isRestored <;> rfl
  rw [load, table, Run.ok_bind]
  dsimp only
  rw [types, Run.ok_bind, kept]
  rfl

theorem Writable.listed (writable : Writable c) : ∀ e ∈ c, e.1 ≠ [] → ∀ g ∈ e.2, IsListed g :=
  fun e member _ g inside =>
    LineRanges.read_encode (writable.brief e member g inside) (writable.room e member g inside)

theorem load_of_writable (writable : Writable c)
    (table : readTable t (s.here ++ s.groupsPath) = .ok (some (s.groupsTable c))) :
    s.load t = .ok (some (s.restoredCorpus c)) :=
  load_of_listed writable.listed table

/-- Every group that can be kept is found in its record again. -/
theorem isRestored_of_keepable {g : Group} (keepable : Keepable g) : isRestored g = true := by
  obtain ⟨n, member⟩ := List.exists_mem_of_ne_nil _ keepable.lines
  have some_ : LineRanges.decode (LineRanges.encode g.lines) ≠ [] := by
    rw [LineRanges.decode_encode keepable.readable]
    exact List.ne_nil_of_mem (LineRanges.mem_ascending.mpr member)
  simp [isRestored, isRecorded, keepable.name, keepable.filePath_ne_nil, some_]

theorem KeepableCorpus.writable (keepable : KeepableCorpus c) : Writable c where
  distinct := keepable.distinct
  brief := fun e member g inside n known =>
    (LineRanges.readable_iff.mp ((keepable.groups e member g inside).readable n known)).2
  room := fun e member g inside => (keepable.groups e member g inside).room

/-- Of a corpus that can be kept only the types without groups are lost. -/
theorem restoredCorpus_of_keepable (absolute : s.workspace.isAbsolute = true)
    (keepable : KeepableCorpus c) : s.restoredCorpus c = s.keptCorpus c := by
  have types : c.filter (!·.1.isEmpty) = c :=
    List.filter_eq_self.mpr fun e member => by simpa using keepable.types e member
  have groups : (c.map fun e => (e.1, e.2.filter isRestored)) = c := by
    conv_rhs => rw [← List.map_id c]
    refine List.map_congr_left fun e member => ?_
    rw [List.filter_eq_self.mpr fun g inside =>
      isRestored_of_keepable (keepable.groups e member g inside), id]
  rw [restoredCorpus, types, Corpus.restrict, groups, keptCorpus]
  refine List.map_congr_left fun e member => ?_
  have inside := List.mem_of_mem_filter member
  rw [List.map_congr_left fun g known =>
    restored_eq_kept absolute (keepable.groups e inside g known)]

theorem load_of_readTable (absolute : s.workspace.isAbsolute = true) (keepable : KeepableCorpus c)
    (table : readTable t (s.here ++ s.groupsPath) = .ok (some (s.groupsTable c))) :
    s.load t = .ok (some (s.keptCorpus c)) := by
  rw [load_of_writable keepable.writable table, restoredCorpus_of_keepable absolute keepable]

/-! ## The index file -/

theorem membersOf_list (vs : List Value) : membersOf (some (.list vs)) = .ok vs := by
  cases vs with
  | nil => rfl
  | cons v vs => rfl

theorem readEntry_toValue (e : Hierarchy.IndexEntry) :
    readEntry (SavedEntry.ofEntry e).toValue = .ok (some (SavedEntry.ofEntry e)) := by
  have children := membersOf_list (e.children.map .text)
  have fileTypes := membersOf_list (e.fileTypes.map .text)
  change (membersOf (some (.list (e.children.map .text))) >>= fun children =>
    membersOf (some (.list (e.fileTypes.map .text))) >>= fun fileTypes =>
      (Except.ok (some { SavedEntry.ofEntry e with children, fileTypes }) :
        Except Fault (Option SavedEntry))) = _
  rw [children, Run.ok_bind, fileTypes, Run.ok_bind]
  rfl

/-- **Reading takes the index apart.** -/
theorem readIndex_toValue (i : Hierarchy.Index) :
    ∃ members, (SavedIndex.ofIndex i).toValue.table? = some members ∧
      readIndex members = .ok (SavedIndex.ofIndex i) := by
  have entries : readEntries ((SavedIndex.ofIndex i).entries.map fun e => (e.1, e.2.toValue)) =
      .ok (SavedIndex.ofIndex i).entries := by
    have read : ((SavedIndex.ofIndex i).entries.map fun e => (e.1, e.2.toValue)).mapM
        (fun m => (readEntry m.2).map fun e => (m.1, e)) =
        .ok (i.map fun e => (e.1, some (SavedEntry.ofEntry e.2))) := by
      rw [Run.mapM_eq_ok_iff, SavedIndex.ofIndex, List.map_map, List.forall₂_map_left_iff,
        List.forall₂_map_right_iff, List.forall₂_same]
      intro e _
      simp only [Function.comp_apply, readEntry_toValue]
      rfl
    rw [readEntries, read]
    change Except.ok (List.filterMap _ _) = _
    rw [List.filterMap_map]
    exact congrArg Except.ok (congrFun List.filterMap_eq_map' i)
  refine ⟨_, rfl, ?_⟩
  rw [readIndex]
  change (readEntries ((SavedIndex.ofIndex i).entries.map fun e => (e.1, e.2.toValue)) >>=
    fun entries => (Except.ok { version := (SavedIndex.ofIndex i).version, entries } :
      Except Fault SavedIndex)) = _
  rw [entries]
  rfl

theorem plain_toValue (i : Hierarchy.Index) : Json.Plain (SavedIndex.ofIndex i).toValue := by
  have texts : ∀ ts : List Text, Json.Plain (.list (ts.map .text)) := fun ts => by
    refine .list fun v member => ?_
    obtain ⟨t, -, rfl⟩ := List.mem_map.mp member
    exact .text t
  have entry : ∀ e : Hierarchy.IndexEntry, Json.Plain (SavedEntry.ofEntry e).toValue := fun e => by
    refine .table fun m member => ?_
    simp only [List.mem_cons, List.not_mem_nil, or_false] at member
    rcases member with rfl | rfl | rfl | rfl | rfl
    · exact .int _
    · cases parent : e.parent with
      | none => simpa [SavedEntry.ofEntry, parent] using Json.Plain.null
      | some path => simpa [SavedEntry.ofEntry, parent] using Json.Plain.text path
    · exact texts _
    · exact .int _
    · exact texts _
  refine .table fun m member => ?_
  simp only [List.mem_cons, List.not_mem_nil, or_false] at member
  rcases member with rfl | rfl | rfl
  · exact .text _
  · exact .int _
  · refine .table fun m member => ?_
    obtain ⟨e, known, rfl⟩ := List.mem_map.mp member
    obtain ⟨e, -, rfl⟩ := List.mem_map.mp known
    exact entry e.2

/-- A whole number that JSON can keep. -/
abbrev Short (n : Nat) : Prop := (Number.showNat n).length ≤ Number.maxDigits

/-- Reading undoes writing for an index whose numbers are short. -/
theorem faithful_toValue {i : Hierarchy.Index} (distinct : (Entries.keys i).Nodup)
    (count : Short i.length) (short : ∀ e ∈ i, Short e.2.level ∧ Short e.2.groupCount) :
    Json.Faithful Json.depthLimit (SavedIndex.ofIndex i).toValue := by
  have texts {depth : Nat} (ts : List Text) : Json.Faithful (depth + 1) (.list (ts.map .text)) := by
    refine .list fun v member => ?_
    obtain ⟨t, -, rfl⟩ := List.mem_map.mp member
    exact .text t
  have entry {depth : Nat} (e : Hierarchy.IndexEntry) (level : Short e.level)
      (groupCount : Short e.groupCount) :
      Json.Faithful (depth + 2) (SavedEntry.ofEntry e).toValue := by
    refine .table (by simp [Entries.keys]) fun m member => ?_
    simp only [List.mem_cons, List.not_mem_nil, or_false] at member
    rcases member with rfl | rfl | rfl | rfl | rfl
    · exact .nat _ level
    · cases parent : e.parent with
      | none => simpa [SavedEntry.ofEntry, parent] using Json.Faithful.null
      | some path => simpa [SavedEntry.ofEntry, parent] using Json.Faithful.text path
    · exact texts _
    · exact .nat _ groupCount
    · exact texts _
  refine .table (by simp [Entries.keys]) fun m member => ?_
  simp only [List.mem_cons, List.not_mem_nil, or_false] at member
  rcases member with rfl | rfl | rfl
  · exact .text _
  · refine .nat _ ?_
    rwa [SavedIndex.ofIndex, List.length_map]
  · refine .table ?_ fun m member => ?_
    · rwa [SavedIndex.ofIndex, Entries.keys_map, Entries.keys_map]
    · obtain ⟨e, known, rfl⟩ := List.mem_map.mp member
      obtain ⟨e, inside, rfl⟩ := List.mem_map.mp known
      exact entry e.2 (short e inside).1 (short e inside).2

/-! ## The round trip -/

section RoundTrip

variable {index : Hierarchy.Index} {p q : Place}

theorem load_of_saved (absolute : s.workspace.isAbsolute = true) (keepable : KeepableCorpus c)
    (saved : (s.save c).perform t = (.ok index, t'))
    (groupsAt : t'.locate (s.here ++ s.groupsPath) = .ok p)
    (indexAt : t'.locate (s.here ++ s.indexPath) = .ok q) (different : p ≠ q) :
    s.load t' = .ok (some (s.keptCorpus c)) :=
  load_of_readTable absolute keepable
    (readTable_groups keepable.distinct (read_save saved groupsAt indexAt different).1)

theorem loadIndex_of_saved (saved : (s.save c).perform t = (.ok index, t'))
    (groupsAt : t'.locate (s.here ++ s.groupsPath) = .ok p)
    (indexAt : t'.locate (s.here ++ s.indexPath) = .ok q) (different : p ≠ q)
    (inverts : Json.read (indexText index) = .ok (SavedIndex.ofIndex index).toValue) :
    s.loadIndex t' = .ok (some (SavedIndex.ofIndex index)) := by
  obtain ⟨-, content⟩ := read_save saved groupsAt indexAt different
  obtain ⟨rfl, -⟩ := perform_save.mp saved
  obtain ⟨members, table, entries⟩ := readIndex_toValue (Hierarchy.Index.ofCorpus c)
  rw [loadIndex, readTable_of_read (plain_toValue _) inverts content, table, Run.ok_bind]
  dsimp only
  rw [entries]
  rfl

end RoundTrip

/-- **A saved corpus is loaded again, and so is its index.**  The workspace is absolute, the corpus
can be kept, and after the save the two files are at two different places; of JSON it is assumed
that the text of the index is read as the index.  Then loading gives the groups that are kept, type
by type in the same order and without the types that had no group, and the index that the save has
returned. -/
theorem load_save (s : Store) (absolute : s.workspace.isAbsolute = true) (c : Corpus)
    (keepable : KeepableCorpus c) (t t' : FileTree) (index : Hierarchy.Index)
    (saved : (s.save c).perform t = (.ok index, t')) (p q : Place)
    (groupsAt : t'.locate (s.here ++ s.groupsPath) = .ok p)
    (indexAt : t'.locate (s.here ++ s.indexPath) = .ok q) (different : p ≠ q)
    (inverts : Json.read (indexText index) = .ok (SavedIndex.ofIndex index).toValue) :
    s.load t' = .ok (some ((c.filter (!·.2.isEmpty)).map fun e => (e.1, e.2.map s.kept))) ∧
      s.loadIndex t' = .ok (some (SavedIndex.ofIndex index)) :=
  ⟨load_of_saved absolute keepable saved groupsAt indexAt different,
    loadIndex_of_saved saved groupsAt indexAt different inverts⟩

/-! ### A small workspace -/

/-- A disk with one empty directory. -/
def emptyWorkspace : FileTree := { nodes := [(["ws".toList], .directory)] }

theorem regular_emptyWorkspace : emptyWorkspace.Regular ["ws".toList] :=
  .of_nodes ((FileTree.grounded_nil _).concat (by decide)) (by decide) (by simp [emptyWorkspace])

theorem ready_emptyWorkspace : Ready emptyWorkspace ["ws".toList] :=
  ⟨.inr (by decide), by decide, by decide⟩

def login : Group :=
  { functionality := "Auth > Login", filePath := "/ws/src/../a.js", lines := [3, 1, 2, 2, 7] }

/-- A type with one group, whose path is not in normal form, and one without any. -/
def loginCorpus : Corpus := [("js", [login]), ("py", [])]

theorem keepable_login : Keepable login := by
  refine ⟨by decide, by decide, by decide, by decide, ?_⟩
  change 5 < Nat.pow 2 32
  decide

theorem keepable_loginCorpus : KeepableCorpus loginCorpus := by
  refine ⟨by decide, by decide, ?_⟩
  rintro e member g inside
  rcases List.mem_cons.mp member with rfl | member
  · rw [List.mem_singleton.mp inside]
    exact keepable_login
  · rw [List.mem_singleton.mp member] at inside
    cases inside

theorem inverts_loginCorpus :
    let index := Hierarchy.Index.ofCorpus loginCorpus
    Json.read (indexText index) = .ok (SavedIndex.ofIndex index).toValue :=
  Json.read_write (faithful_toValue (Hierarchy.Index.nodup_keys_ofCorpus _) (by decide +kernel)
    (by decide +kernel))

/-- In a workspace with one slash in front the path comes back in normal form. -/
theorem load_save_login :
    let s : Store := { here := ⟨1, []⟩, workspace := Path.ofText "/ws" }
    ∃ t' index, (s.save loginCorpus).perform emptyWorkspace = (.ok index, t') ∧
      s.load t' = .ok (some [("js", [{
        login with
          filePath := "/ws/a.js", lines := [1, 2, 3, 7], place := .ofName "Auth > Login" }])]) ∧
      s.loadIndex t' = .ok (some (SavedIndex.ofIndex index)) := by
  intro s
  have real : s.workspace = ⟨0 + 1, ["ws".toList]⟩ := by decide
  obtain ⟨t', saved, groupsAt, indexAt⟩ :=
    exists_saved s loginCorpus regular_emptyWorkspace ready_emptyWorkspace real
  have loaded := load_save s (by decide) loginCorpus keepable_loginCorpus emptyWorkspace t' _ saved
    _ _ groupsAt indexAt (groupsPlace_ne_indexPlace _) inverts_loginCorpus
  have kept_ : s.kept login =
      { login with
        filePath := "/ws/a.js", lines := [1, 2, 3, 7], place := .ofName "Auth > Login" } := by
    have lines : LineRanges.sorted login.lines = [1, 2, 3, 7] := by
      rw [← LineRanges.ascending_eq_sorted]
      cbv
    rw [kept, lines]
    decide
  refine ⟨t', _, saved, ?_, loaded.2⟩
  rw [← kept_]
  exact loaded.1

/-- A disk on which the groups file of the workspace is a link to the index file. -/
def linkedWorkspace : FileTree :=
  { nodes :=
      [(["ws".toList], .directory), (["ws".toList, ".groupcode".toList], .directory),
        (["ws".toList, ".groupcode".toList, "codegroups.json".toList],
          .link "functionalities.json")] }

def linkedIndex : Place := ["ws".toList, ".groupcode".toList, "functionalities.json".toList]

/-- In a workspace with two slashes in front the path comes back with two; and where the groups file
is a link to the index file nothing comes back at all. -/
theorem load_save_not_exact :
    (let s : Store := { here := ⟨1, []⟩, workspace := Path.ofText "//ws" }
    ∃ t' index g, (s.save loginCorpus).perform emptyWorkspace = (.ok index, t') ∧
      s.load t' = .ok (some [("js", [g])]) ∧ g.filePath = "//ws/a.js" ∧
      (Path.ofText login.filePath).normalize.toText = "/ws/a.js") ∧
    (let s : Store := { here := ⟨1, []⟩, workspace := Path.ofText "/ws" }
    ∃ t' index, (s.save loginCorpus).perform linkedWorkspace = (.ok index, t') ∧
      s.load t' = .ok (some [])) := by
  constructor
  · intro s
    have real : s.workspace = ⟨1 + 1, ["ws".toList]⟩ := by decide
    obtain ⟨t', saved, groupsAt, indexAt⟩ :=
      exists_saved s loginCorpus regular_emptyWorkspace ready_emptyWorkspace real
    refine ⟨t', _, s.kept login, saved, ?_, by decide, by decide⟩
    exact load_of_saved (by decide) keepable_loginCorpus saved groupsAt indexAt
      (groupsPlace_ne_indexPlace _)
  · intro s
    let t₁ := linkedWorkspace.put linkedIndex (.file (Text.encode (s.groupsText loginCorpus)))
    let t₂ := t₁.put linkedIndex
      (.file (Text.encode (indexText (Hierarchy.Index.ofCorpus loginCorpus))))
    have made : linkedWorkspace.makeDirectories (s.here ++ s.directory) = .ok linkedWorkspace := by
      cbv
    have groups (content : Bytes) : linkedWorkspace.write (s.here ++ s.groupsPath) content =
        .ok (linkedWorkspace.put linkedIndex (.file content)) := by cbv
    have index (content content' : Bytes) :
        (linkedWorkspace.put linkedIndex (.file content)).write (s.here ++ s.indexPath) content' =
          .ok ((linkedWorkspace.put linkedIndex (.file content)).put linkedIndex
            (.file content')) := by
      cbv
    have located (content content' : Bytes) :
        ((linkedWorkspace.put linkedIndex (.file content)).put linkedIndex (.file content')).locate
          (s.here ++ s.groupsPath) = .ok linkedIndex := by cbv
    have read : t₂.read (s.here ++ s.groupsPath) =
        .ok (Text.encode (indexText (Hierarchy.Index.ofCorpus loginCorpus))) :=
      FileTree.read_of_locate (located _ _) (FileTree.node?_put_self _ (by decide) _)
    refine ⟨t₂, _, perform_save.mpr ⟨rfl, _, t₁, made, groups _, index _ _⟩, ?_⟩
    rw [load, readTable_of_read (plain_toValue _) inverts_loginCorpus read, Run.ok_bind]
    rfl

end CodeAtlas.Store
