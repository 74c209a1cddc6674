/-
# Proofs.Store.Agreement -- the saved index and the groups that are loaded again

A save writes two files from the same corpus, but not by the same rules.  The index is made of all
groups.  The groups file leaves out the groups under the type without a name and those without a
path, and of what it holds, loading drops the records whose lines have come to nothing
(`load_of_writable`).  A group that only the index knows stays in its counts, types and paths.

So the saved index is the index of what is loaded exactly if every group with a place in the
hierarchy comes back: it is under a type with a name, it has a path, and one of its lines is a
natural number without a neighbour below it (`index_agrees_iff`).
-/
import CodeAtlas.Proofs.Store.Files

namespace CodeAtlas.Store

set_option autoImplicit false

variable {s : Store} {t t' : FileTree} {c : Corpus}

theorem tagged_restoredCorpus (s : Store) (c : Corpus) : (s.restoredCorpus c).tagged =
    (c.tagged.filter fun x => !x.1.isEmpty && isRestored x.2).map (Prod.map id s.restored) := by
  rw [restoredCorpus, Corpus.tagged_map, Corpus.tagged_restrict, c.tagged_filter (!·.isEmpty),
    List.filter_filter]
  simp only [Bool.and_comm]

/-! ## The index beside it -/

/-- Two entries that are saved alike are the same. -/
theorem ofEntry_injective : Function.Injective SavedEntry.ofEntry := by
  rintro ⟨level, parent, children, groupCount, fileTypes⟩
    ⟨level', parent', children', groupCount', fileTypes'⟩ same
  have text : Function.Injective Value.text := fun _ _ same => Value.text.inj same
  simp only [SavedEntry.ofEntry, SavedEntry.mk.injEq, Int.natCast_inj] at same
  obtain ⟨rfl, parents, childrens, rfl, types⟩ := same
  obtain rfl := text.list_map childrens
  obtain rfl := text.list_map types
  cases parent <;> cases parent' <;> simp_all

theorem isRestored_iff {g : Group} (brief : ∀ n ∈ g.lines, LineRanges.Brief n)
    (some_ : Hierarchy.segments g.functionality ≠ []) :
    isRestored g = true ↔ g.filePath ≠ [] ∧ ∃ n ∈ g.lines, 0 ≤ n ∧ n - 1 ∉ g.lines := by
  have name : g.functionality ≠ [] := by
    intro empty
    rw [empty] at some_
    exact some_ (by decide)
  rw [← LineRanges.decode_encode_ne_nil_iff brief]
  simp [isRestored, isRecorded, name]

/-- **The saved index agrees with the saved groups exactly if all groups come back.**  Whatever a
corpus holds, what a save leaves behind can be loaded; and the entries of the index that is loaded
are those of the index of the groups that are loaded if and only if every group whose name has
segments is under a type with a name, has a path, and has a natural number without a neighbour below
it among its lines. -/
theorem index_agrees_iff (s : Store) (c : Corpus) (writable : Writable c) (t t' : FileTree)
    (index : Hierarchy.Index) (saved : (s.save c).perform t = (.ok index, t'))
    (count : Short index.length) (short : ∀ e ∈ index, Short e.2.level ∧ Short e.2.groupCount)
    (p q : Place) (groupsAt : t'.locate (s.here ++ s.groupsPath) = .ok p)
    (indexAt : t'.locate (s.here ++ s.indexPath) = .ok q) (different : p ≠ q) :
    ∃ c' i, s.load t' = .ok (some c') ∧ s.loadIndex t' = .ok (some i) ∧
      ((∀ path, Entries.get? i.entries path =
          (Entries.get? (Hierarchy.Index.ofCorpus c') path).map SavedEntry.ofEntry) ↔
        ∀ e ∈ c, ∀ g ∈ e.2, Hierarchy.segments g.functionality ≠ [] →
          e.1 ≠ [] ∧ g.filePath ≠ [] ∧ ∃ n ∈ g.lines, 0 ≤ n ∧ n - 1 ∉ g.lines) := by
  obtain ⟨rfl, -⟩ := perform_save.mp saved
  have inverts := Json.read_write
    (faithful_toValue (Hierarchy.Index.nodup_keys_ofCorpus c) count short)
  refine ⟨_, _, load_of_writable writable
    (readTable_groups writable.distinct (read_save saved groupsAt indexAt different).1),
    loadIndex_of_saved saved groupsAt indexAt different inverts, ?_⟩
  have entries : ∀ path, Entries.get? (SavedIndex.ofIndex (Hierarchy.Index.ofCorpus c)).entries path =
      (Entries.get? (Hierarchy.Index.ofCorpus c) path).map SavedEntry.ofEntry := fun path =>
    Entries.get?_map _ (fun e => SavedEntry.ofEntry e.2) path
  simp only [entries, (Option.map_injective ofEntry_injective).eq_iff]
  rw [Hierarchy.Index.get?_ofCorpus_filter_iff s.functionality_restored (s.tagged_restoredCorpus c)]
  constructor
  · intro all e member g inside some_
    cases comesBack : !e.1.isEmpty && isRestored g with
    | false =>
        have known : (e.1, g) ∈ c.tagged := Corpus.mem_tagged.mpr ⟨e, member, rfl, inside⟩
        exact absurd (all (e.1, g) known comesBack) some_
    | true =>
        rw [Bool.and_eq_true, isRestored_iff (writable.brief e member g inside) some_] at comesBack
        exact ⟨by simpa using comesBack.1, comesBack.2⟩
  · rintro all ⟨type, g⟩ member lost
    by_contra some_
    obtain ⟨e, known, rfl, inside⟩ := Corpus.mem_tagged.mp member
    obtain ⟨type_, comesBack⟩ := all e known g inside some_
    rw [← isRestored_iff (writable.brief e known g inside) some_] at comesBack
    simp [type_, comesBack] at lost

/-! ### In a small workspace -/

theorem writable_of_few (distinct : c.keys.Nodup)
    (brief : ∀ e ∈ c, ∀ g ∈ e.2, ∀ n ∈ g.lines, LineRanges.Brief n)
    (few : ∀ e ∈ c, ∀ g ∈ e.2, g.lines.length ≤ 5) : Writable c :=
  ⟨distinct, brief, fun e member g inside =>
    (few e member g inside).trans_lt (by decide : 5 < LineRanges.roomLimit)⟩

/-- One group that comes back, and one that neither comes back nor stands anywhere. -/
def looseCorpus : Corpus := [("js", [login, { functionality := ">", filePath := [], lines := [] }])]

theorem index_agrees_iff_loose :
    let s : Store := { here := ⟨1, []⟩, workspace := Path.ofText "/ws" }
    ∃ t' index c' i, (s.save looseCorpus).perform emptyWorkspace = (.ok index, t') ∧
      s.load t' = .ok (some c') ∧ s.loadIndex t' = .ok (some i) ∧
      ∀ path, Entries.get? i.entries path =
        (Entries.get? (Hierarchy.Index.ofCorpus c') path).map SavedEntry.ofEntry := by
  intro s
  have real : s.workspace = ⟨0 + 1, ["ws".toList]⟩ := by decide
  have writable : Writable looseCorpus := writable_of_few (by decide) (by decide) (by decide)
  obtain ⟨t', saved, groupsAt, indexAt⟩ :=
    exists_saved s looseCorpus regular_emptyWorkspace ready_emptyWorkspace real
  obtain ⟨c', i, loaded, loaded', agree⟩ := index_agrees_iff s looseCorpus writable emptyWorkspace t'
    _ saved (by decide +kernel) (by decide +kernel) _ _ groupsAt indexAt
    (groupsPlace_ne_indexPlace _)
  exact ⟨t', _, c', i, saved, loaded, loaded', agree.mpr (by decide)⟩

/-- A group without a path. -/
def pathlessCorpus : Corpus := [("js", [{ functionality := "auth", filePath := [], lines := [1] }])]

/-- Nothing is loaded of a group without a path, and the index counts it all the same. -/
theorem index_of_pathless :
    let s : Store := { here := ⟨1, []⟩, workspace := Path.ofText "/ws" }
    ∃ t' index i, (s.save pathlessCorpus).perform emptyWorkspace = (.ok index, t') ∧
      s.load t' = .ok (some []) ∧ s.loadIndex t' = .ok (some i) ∧
      (Entries.get? i.entries "auth").map SavedEntry.groupCount = some 1 ∧
      Entries.get? (Hierarchy.Index.ofCorpus []) "auth" = none := by
  intro s
  have real : s.workspace = ⟨0 + 1, ["ws".toList]⟩ := by decide
  have writable : Writable pathlessCorpus := writable_of_few (by decide) (by decide) (by decide)
  obtain ⟨t', saved, groupsAt, indexAt⟩ :=
    exists_saved s pathlessCorpus regular_emptyWorkspace ready_emptyWorkspace real
  have different := groupsPlace_ne_indexPlace ["ws".toList]
  have inverts := Json.read_write (faithful_toValue
    (Hierarchy.Index.nodup_keys_ofCorpus pathlessCorpus) (by decide +kernel) (by decide +kernel))
  have loaded := load_of_writable writable
    (readTable_groups writable.distinct (read_save saved groupsAt indexAt different).1)
  exact ⟨t', _, _, saved, loaded, loadIndex_of_saved saved groupsAt indexAt different inverts,
    by decide +kernel, by decide⟩

end CodeAtlas.Store
