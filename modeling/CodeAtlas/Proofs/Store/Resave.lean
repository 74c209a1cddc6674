/-
# Proofs.Store.Resave -- saving what has been loaded

A file is loaded leniently and saved strictly, so a save may lose what only a lenient reader takes.
What has been loaded and saved is loaded again group by group (`restoredCorpus`): a group comes back as
it was, its lines in ascending order and without repetitions, if it is *lasting* (`Lasting`).  Two
things keep a group from lasting:

* a negative line, which is written with a sign that reading takes for the middle of a range;
* a path with more or fewer slashes in front than the workspace has, because a path is saved as seen
  from there.

And a type without a name is not saved at all.  Nothing else is lost (`load_resave`): what has been
loaded has names, lines, and paths in normal form already (`loadedCorpus_of_load`).  That a lone
surrogate has become U+FFFD is a matter of the first time it is loaded.
-/
import CodeAtlas.Proofs.Store.Loaded

namespace CodeAtlas.Store

set_option autoImplicit false

variable {s : Store} {t t' : FileTree} {c : Corpus} {g : Group}

/-! ## Lasting groups -/

/-- A group that a save leaves as it is, the order of its lines apart. -/
structure Lasting (s : Store) (g : Group) : Prop where
  lines : ∀ n ∈ g.lines, 0 ≤ n
  slashes : (Path.ofText g.filePath).root = s.workspace.root

theorem toAbsolute_toRelative_of_lasting (absolute : s.workspace.isAbsolute = true)
    (loaded : Loaded g) (lasting : Lasting s g) :
    s.toAbsolute (s.toRelative g.filePath) = g.filePath := by
  obtain ⟨p, settled, path⟩ := loaded.path
  have read : Path.ofText g.filePath = p := by
    rw [path]
    exact settled.ofText_toText
  have absolute' : (Path.ofText g.filePath).isAbsolute = true := by
    rw [read]
    exact settled.absolute
  have slashes := lasting.slashes
  rw [toAbsolute_toRelative absolute absolute', ← slashes, read, settled.normalize, path]

theorem decode_encode_of_lasting (loaded : Loaded g) (lasting : Lasting s g) :
    LineRanges.decode (LineRanges.encode g.lines) = LineRanges.sorted g.lines := by
  have readable : ∀ n ∈ g.lines, LineRanges.Readable n := fun n member =>
    LineRanges.readable_iff.mpr ⟨lasting.lines n member, loaded.brief n member⟩
  rw [LineRanges.decode_encode readable, LineRanges.ascending_eq_sorted]

theorem restored_of_lasting (absolute : s.workspace.isAbsolute = true) (loaded : Loaded g)
    (lasting : Lasting s g) :
    s.restored g = { g with lines := LineRanges.sorted g.lines } := by
  have place := loaded.place
  unfold restored group
  rw [toAbsolute_toRelative_of_lasting absolute loaded lasting,
    decode_encode_of_lasting loaded lasting]
  unfold loadedPlace at place
  by_cases delimited : g.functionality.contains Hierarchy.delimiter = true
  · rw [if_pos delimited] at place ⊢
    unfold Group.placed
    rw [← place]
  · rw [if_neg delimited] at place ⊢
    rw [← place]

theorem isRestored_of_lasting (loaded : Loaded g) (lasting : Lasting s g) : isRestored g = true := by
  obtain ⟨n, member⟩ := List.exists_mem_of_ne_nil _ loaded.lines
  have lines : LineRanges.decode (LineRanges.encode g.lines) ≠ [] := by
    rw [decode_encode_of_lasting loaded lasting, ← LineRanges.ascending_eq_sorted]
    exact List.ne_nil_of_mem (LineRanges.mem_ascending.mpr member)
  have path : g.filePath ≠ [] := by
    obtain ⟨p, -, path⟩ := loaded.path
    rw [path]
    exact Path.toText_ne_nil p
  simp [isRestored, isRecorded, loaded.name, path, lines]

/-! ## A corpus -/

/-- Of a corpus whose groups last only the type without a name is lost. -/
theorem restoredCorpus_of_lasting (absolute : s.workspace.isAbsolute = true)
    (loaded : LoadedCorpus c) (lasting : ∀ e ∈ c, e.1 ≠ [] → ∀ g ∈ e.2, Lasting s g) :
    s.restoredCorpus c = (c.filter (!·.1.isEmpty)).map fun e =>
      (e.1, e.2.map fun g => { g with lines := LineRanges.sorted g.lines }) := by
  have known : ∀ e ∈ c.filter (!·.1.isEmpty), e ∈ c ∧ ∀ g ∈ e.2, Lasting s g := by
    intro e member
    obtain ⟨inside, type⟩ := List.mem_filter.mp member
    exact ⟨inside, lasting e inside (by simpa using type)⟩
  have kept : Corpus.restrict (c.filter (!·.1.isEmpty)) isRestored = c.filter (!·.1.isEmpty) := by
    apply Corpus.restrict_eq_self
    · exact fun e member => loaded.some_ e (known e member).1
    · intro e member g here
      obtain ⟨inside, lasts⟩ := known e member
      exact isRestored_of_lasting (loaded.groups e inside g here) (lasts g here)
  rw [restoredCorpus, kept]
  refine List.map_congr_left fun e member => ?_
  obtain ⟨inside, lasts⟩ := known e member
  rw [List.map_congr_left fun g here =>
    restored_of_lasting absolute (loaded.groups e inside g here) (lasts g here)]

/-- **What is loaded after a save** of what has been loaded. -/
theorem load_of_resaved (loaded : LoadedCorpus c)
    (roomy : ∀ e ∈ c, e.1 ≠ [] → ∀ g ∈ e.2, LineRanges.Roomy g.lines) {index : Hierarchy.Index}
    (saved : (s.save c).perform t = (.ok index, t')) {p q : Place}
    (groupsAt : t'.locate (s.here ++ s.groupsPath) = .ok p)
    (indexAt : t'.locate (s.here ++ s.indexPath) = .ok q) (different : p ≠ q) :
    s.load t' = .ok (some (s.restoredCorpus c)) := by
  have content := (read_save saved groupsAt indexAt different).1
  refine load_of_listed ?_ (readTable_groups loaded.distinct content)
  intro e member type g inside
  exact LineRanges.read_encode_of_roomy (loaded.groups e member g inside).brief
    (roomy e member type g inside)

/-- **Saving what has been loaded loses no group that lasts.**  The workspace is absolute, what is
loaded is saved, the two files are then at two different places, and in no group that is written are
2^32 numbers in a row.  Then the file is loaded again, each group by itself; a group that lasts comes
back as it was, with its distinct lines in ascending order.  If all groups under types with names
last, the same types come back in the same order with the same groups.  (Texts with a lone surrogate
are those with U+FFFD in its place.) -/
theorem load_resave (s : Store) (absolute : s.workspace.isAbsolute = true)
    (wellFormed : s.workspace.WellFormed) (t t' : FileTree) (c : Corpus)
    (loaded : s.load t = .ok (some c))
    (roomy : ∀ e ∈ c, e.1 ≠ [] → ∀ g ∈ e.2, LineRanges.Roomy g.lines) (index : Hierarchy.Index)
    (saved : (s.save c).perform t = (.ok index, t')) (p q : Place)
    (groupsAt : t'.locate (s.here ++ s.groupsPath) = .ok p)
    (indexAt : t'.locate (s.here ++ s.indexPath) = .ok q) (different : p ≠ q) :
    s.load t' = .ok (some (s.restoredCorpus c)) ∧
      (∀ e ∈ c, ∀ g ∈ e.2, Lasting s g → isRestored g = true ∧
        s.restored g = { g with lines := LineRanges.sorted g.lines }) ∧
      ((∀ e ∈ c, e.1 ≠ [] → ∀ g ∈ e.2, Lasting s g) →
        s.load t' = .ok (some ((c.filter (!·.1.isEmpty)).map fun e =>
          (e.1, e.2.map fun g => { g with lines := LineRanges.sorted g.lines })))) := by
  have known := loadedCorpus_of_load absolute wellFormed loaded
  have again := load_of_resaved known roomy saved groupsAt indexAt different
  refine ⟨again, ?_, ?_⟩
  · intro e member g inside lasting
    have here := known.groups e member g inside
    exact ⟨isRestored_of_lasting here lasting, restored_of_lasting absolute here lasting⟩
  · intro lasting
    rw [again, restoredCorpus_of_lasting absolute known lasting]

/-! ### On a small disk -/

theorem regular_diskOf (members : Entries Value) : (diskOf members).Regular ["ws".toList] := by
  refine .of_nodes ((FileTree.grounded_nil _).concat rfl) ?_ ?_
  · intro e member
    rcases List.mem_cons.mp member with rfl | member
    · show ∀ name ∈ ["ws".toList], Path.IsName name
      decide
    · rcases List.mem_cons.mp member with rfl | member
      · show ∀ name ∈ storePath, Path.IsName name
        decide
      · rw [List.mem_singleton.mp member]
        show ∀ name ∈ storePath ++ ["codegroups.json".toList], Path.IsName name
        decide
  · intro e member target link
    rcases List.mem_cons.mp member with rfl | member
    · cases link
    · rcases List.mem_cons.mp member with rfl | member
      · cases link
      · rw [List.mem_singleton.mp member] at link
        cases link

theorem ready_diskOf (members : Entries Value) : Ready (diskOf members) ["ws".toList] := by
  refine ⟨.inl rfl, ?_, ?_⟩
  · show some (FileNode.file _) ≠ some .directory
    simp
  · show none ≠ some FileNode.directory
    simp

theorem roomy_of_few (few : ∀ e ∈ c, ∀ g ∈ e.2, g.lines.length ≤ 5) :
    ∀ e ∈ c, e.1 ≠ [] → ∀ g ∈ e.2, LineRanges.Roomy g.lines :=
  fun e member _ g inside => LineRanges.roomy_of_length_lt
    ((few e member g inside).trans_lt (by decide : 5 < LineRanges.roomLimit))

/-- A group with a repeated line and a place, and the one behind it. -/
def repeated : Group :=
  Group.placed { functionality := "a > b", filePath := "/ws/a.js", lines := [5, 4, 5] }

/-- What has been loaded comes back with its lines in order. -/
theorem load_resave_repeated :
    let t := diskWith (recordWith "a > b" (.list [.int 5, .int 4, .int 5]))
    let c : Corpus := [("js", [repeated, second])]
    smallStore.load t = .ok (some c) ∧ ∃ index t', (smallStore.save c).perform t = (.ok index, t') ∧
      smallStore.load t' = .ok (some [("js",
        [{ repeated with lines := [4, 5] }, { second with lines := [1, 2, 3] }])]) := by
  intro t c
  have stored : Stored smallStore t _ :=
    stored_diskWith (faithful_recordWith "a > b" (.list fun u inside => by
      simp only [List.mem_cons, List.not_mem_nil, or_false] at inside
      rcases inside with rfl | rfl | rfl
      · exact .nat 5 (by decide)
      · exact .nat 4 (by decide)
      · exact .nat 5 (by decide)))
  have loaded : smallStore.load t = .ok (some c) := by
    rw [load_of_stored stored (by decide)]
    exact congrArg (fun c => Except.ok (some c)) (by decide +kernel)
  have real : smallStore.workspace = ⟨0 + 1, ["ws".toList]⟩ := by decide
  obtain ⟨t', saved, groupsAt, indexAt⟩ :=
    exists_saved smallStore c (regular_diskOf _) (ready_diskOf _) real
  have law := load_resave smallStore (by decide) (Path.wellFormed_ofText "/ws") t t' c loaded
    (roomy_of_few (by decide)) _ saved _ _ groupsAt indexAt (groupsPlace_ne_indexPlace _)
  have lasting : ∀ e ∈ c, e.1 ≠ [] → ∀ g ∈ e.2, Lasting smallStore g := by
    intro e member _ g inside
    rw [List.mem_singleton.mp member] at inside
    rcases List.mem_cons.mp inside with rfl | inside
    · exact ⟨by decide, by decide⟩
    · rw [List.mem_singleton.mp inside]
      exact ⟨by decide, by decide⟩
  refine ⟨loaded, _, t', saved, ?_⟩
  rw [law.2.2 lasting]
  simp only [← LineRanges.ascending_eq_sorted]
  exact congrArg (fun c => Except.ok (some c)) (by cbv)

/-- A record of a group at a path. -/
def recordAt (name filePath : Text) (lines : Value) : Value :=
  .table [("functionality", .text name), ("filePath", .text filePath), ("lineNumbers", lines)]

/-- A record under a type without a name; behind it one with a negative line, one with a path with two
slashes in front, and one that has nothing of the kind. -/
def loosenedRecords : Entries Value :=
  [("", .list [recordAt "a" "a.js" (.text "1")]),
    ("js", .list [recordAt "b" "b.js" (.list [.int (-5)]), recordAt "c" "//x/c.js" (.text "1"),
      recordAt "d" "d.js" (.list [.int 2, .int 1, .int 2])])]

theorem plain_recordAt (name filePath : Text) {lines : Value} (plain : Json.Plain lines) :
    Json.Plain (recordAt name filePath lines) := by
  refine .table fun m member => ?_
  simp only [List.mem_cons, List.not_mem_nil, or_false] at member
  rcases member with rfl | rfl | rfl
  · exact .text _
  · exact .text _
  · exact plain

theorem plain_loosenedRecords : Json.Plain (.table loosenedRecords) := by
  have numbers : ∀ ns : List Int, Json.Plain (.list (ns.map .int)) := by
    intro ns
    refine .list fun v member => ?_
    obtain ⟨n, -, rfl⟩ := List.mem_map.mp member
    exact .int n
  refine .table fun m member => ?_
  simp only [loosenedRecords, List.mem_cons, List.not_mem_nil, or_false] at member
  rcases member with rfl | rfl
  · refine .list fun v inside => ?_
    rw [List.mem_singleton.mp inside]
    exact plain_recordAt _ _ (.text _)
  · refine .list fun v inside => ?_
    simp only [List.mem_cons, List.not_mem_nil, or_false] at inside
    rcases inside with rfl | rfl | rfl
    · exact plain_recordAt _ _ (numbers [-5])
    · exact plain_recordAt _ _ (.text _)
    · exact plain_recordAt _ _ (numbers [2, 1, 2])

/-- The type without a name and the group with the negative line are gone after a save, and the path
with two slashes has lost one. -/
theorem load_resave_loosened :
    let t := diskOf loosenedRecords
    let a : Group := { functionality := "a", filePath := "/ws/a.js", lines := [1] }
    let b : Group := { functionality := "b", filePath := "/ws/b.js", lines := [-5] }
    let c : Group := { functionality := "c", filePath := "//x/c.js", lines := [1] }
    let d : Group := { functionality := "d", filePath := "/ws/d.js", lines := [2, 1, 2] }
    smallStore.load t = .ok (some [("", [a]), ("js", [b, c, d])]) ∧
      ∃ index t', (smallStore.save [("", [a]), ("js", [b, c, d])]).perform t = (.ok index, t') ∧
        smallStore.load t' = .ok (some [("js",
          [{ c with filePath := "/x/c.js" }, { d with lines := [1, 2] }])]) := by
  intro t a b c d
  -- The table on the disk is read as some table, and what it holds is computed.
  have run : ((Json.read (Json.write (.table loosenedRecords))).toOption.bind Value.table?).map
      (fun ms => (ms.all fun m => (recordsOf m.2).all (!isHarmful ·),
        ms.filterMap smallStore.foundUnder?)) =
      some (true, [("".toList, [a]), ("js".toList, [b, c, d])]) := by decide +kernel
  obtain ⟨members, read, found⟩ := Option.map_eq_some_iff.mp run
  obtain ⟨v, read, table⟩ := Option.bind_eq_some_iff.mp read
  obtain ⟨harmless, corpus⟩ := Prod.mk.inj found
  have stored : Stored smallStore t members := by
    refine stored_diskOf plain_loosenedRecords ?_
    rw [Run.toOption_eq_some_iff.mp read]
    cases v with
    | table ms =>
        cases table
        rfl
    | _ => cases table
  have loaded : smallStore.load t = .ok (some [("".toList, [a]), ("js".toList, [b, c, d])]) := by
    rw [← corpus]
    refine load_of_stored stored fun m member v inside => ?_
    simpa using List.all_eq_true.mp (List.all_eq_true.mp harmless m member) v inside
  have real : smallStore.workspace = ⟨0 + 1, ["ws".toList]⟩ := by decide
  obtain ⟨t', saved, groupsAt, indexAt⟩ := exists_saved smallStore
    [("".toList, [a]), ("js".toList, [b, c, d])] (regular_diskOf _) (ready_diskOf _) real
  have known := loadedCorpus_of_load (by decide) (Path.wellFormed_ofText "/ws") loaded
  refine ⟨loaded, _, t', saved, ?_⟩
  rw [load_of_resaved known (roomy_of_few (by decide)) saved groupsAt indexAt
    (groupsPlace_ne_indexPlace _)]
  exact congrArg (fun c => Except.ok (some c)) (by cbv)

end CodeAtlas.Store
