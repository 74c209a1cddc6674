/-
# Proofs.Hierarchy.Index -- what the index says about a path

The index lists the paths above the groups of a corpus (`Listed`), and what it says about a listed
path can be said without the index (`IsEntry`): level and parent are read off the path, the count is
the number of groups whose own path it is, and children and file types are the strictly ascending
lists of the listed paths one level below and of the types with a group at the path or below it.

Gathering is a run over the groups with their types.  After any part of the run the index holds
`entryOf` for exactly the listed paths (`Gathered`); one more group keeps this (`gathered_add`), so
the whole run does (`gathered_gather`).  Finishing turns `entryOf` into an `IsEntry`
(`get?_ofCorpus_eq_some_iff`).  An entry is determined by the multiset of groups and types, so the
order in which a corpus holds them does not matter to any look-up (`get?_ofCorpus_congr`).
-/
import CodeAtlas.Hierarchy.Index
import CodeAtlas.Proofs.Corpus
import CodeAtlas.Proofs.Hierarchy.Path
import CodeAtlas.Proofs.Text.Order

namespace CodeAtlas.Hierarchy.Index

set_option autoImplicit false

/-- The path is that of a group of the list, or above one. -/
def Listed (ts : List (Text × Group)) (path : Text) : Prop :=
  ∃ t ∈ ts, path ∈ ancestors t.2.functionality

instance (ts : List (Text × Group)) (path : Text) : Decidable (Listed ts path) :=
  inferInstanceAs (Decidable (∃ t ∈ ts, path ∈ ancestors t.2.functionality))

/-- How many groups of the list have this path. -/
def standing (ts : List (Text × Group)) (path : Text) : Nat :=
  ts.countP fun t =>
    decide (path ∈ ancestors t.2.functionality) && decide (path = normalize t.2.functionality)

/-- The types of the groups at the path or below it, one for each group. -/
def typesBelow (ts : List (Text × Group)) (path : Text) : List Text :=
  (ts.filter fun t => decide (path ∈ ancestors t.2.functionality)).map Prod.fst

/-- **What an entry of the index says about its path.** -/
structure IsEntry (ts : List (Text × Group)) (path : Text) (e : IndexEntry) : Prop where
  level : e.level = (segments path).length
  parent : e.parent = parent? path
  groupCount : e.groupCount = standing ts path
  children : e.children.Pairwise (· < ·)
  mem_children : ∀ below, below ∈ e.children ↔ Listed ts below ∧ parent? below = some path
  fileTypes : e.fileTypes.Pairwise (· < ·)
  mem_fileTypes : ∀ fileType, fileType ∈ e.fileTypes ↔ fileType ∈ typesBelow ts path

/-! ## Gathering -/

/-- An entry before it is finished. -/
def entryOf (ts : List (Text × Group)) (path : Text) : IndexEntry :=
  { fresh path with groupCount := standing ts path, fileTypes := typesBelow ts path }

/-- The index after a part of the run over the groups. -/
structure Gathered (ts : List (Text × Group)) (i : Index) : Prop where
  nodup : (Entries.keys i).Nodup
  get? : ∀ path, Entries.get? i path = if Listed ts path then some (entryOf ts path) else none

theorem entryOf_of_not_listed {ts : List (Text × Group)} {path : Text}
    (unlisted : ¬ Listed ts path) :
    entryOf ts path = fresh path := by
  have none_ : ∀ t ∈ ts, path ∉ ancestors t.2.functionality :=
    fun t member above => unlisted ⟨t, member, above⟩
  have count : standing ts path = 0 := by
    rw [standing, List.countP_eq_zero]
    intro t member
    simp [none_ t member]
  have types : typesBelow ts path = [] := by
    rw [typesBelow, List.map_eq_nil_iff, List.filter_eq_nil_iff]
    intro t member
    simp [none_ t member]
  rw [entryOf, count, types]
  rfl

theorem Gathered.getD {ts : List (Text × Group)} {i : Index} (gathered : Gathered ts i)
    (path : Text) : (Entries.get? i path).getD (fresh path) = entryOf ts path := by
  rw [gathered.get?]
  split
  · rfl
  · rename_i unlisted
    rw [entryOf_of_not_listed unlisted]
    rfl

theorem nodup_keys_note {i : Index} (nodup : (Entries.keys i).Nodup) (fileType : Text)
    (paths : List Text) : (Entries.keys (paths.foldl (note fileType) i)).Nodup := by
  induction paths generalizing i with
  | nil => exact nodup
  | cons path paths ih => exact ih (Entries.nodup_keys_alter nodup path _)

/-- A type noted on different paths changes the entries of those paths only. -/
theorem get?_foldl_note (fileType : Text) {paths : List Text} (different : paths.Nodup) (i : Index)
    (path : Text) :
    Entries.get? (paths.foldl (note fileType) i) path =
      if path ∈ paths then
        some { (Entries.get? i path).getD (fresh path) with
          fileTypes := ((Entries.get? i path).getD (fresh path)).fileTypes ++ [fileType] }
      else Entries.get? i path := by
  induction paths generalizing i with
  | nil => rfl
  | cons first paths ih =>
      rw [List.nodup_cons] at different
      rw [List.foldl_cons, ih different.2, note, Entries.get?_alter]
      by_cases here : path = first
      · subst here
        simp [different.1]
      · simp [here]

theorem listed_concat {ts : List (Text × Group)} {t : Text × Group} {path : Text} :
    Listed (ts ++ [t]) path ↔ Listed ts path ∨ path ∈ ancestors t.2.functionality := by
  simp only [Listed, List.mem_append, List.mem_singleton, or_and_right, exists_or, exists_eq_left]

/-- The entry of a path when one more group has come. -/
theorem entryOf_concat (ts : List (Text × Group)) (t : Text × Group) (path : Text) :
    entryOf (ts ++ [t]) path =
      if path ∈ ancestors t.2.functionality then
        { entryOf ts path with
          groupCount := (entryOf ts path).groupCount +
            if path = normalize t.2.functionality then 1 else 0
          fileTypes := (entryOf ts path).fileTypes ++ [t.1] }
      else entryOf ts path := by
  rw [entryOf, standing, typesBelow, List.countP_append, List.filter_append, List.map_append]
  by_cases above : path ∈ ancestors t.2.functionality
  · simp [entryOf, standing, typesBelow, above, List.countP_cons]
  · simp [entryOf, standing, typesBelow, above]

/-- **One more group.** -/
theorem gathered_add {ts : List (Text × Group)} {i : Index} (gathered : Gathered ts i)
    (t : Text × Group) : Gathered (ts ++ [t]) (add t.1 i t.2) := by
  by_cases empty : segments t.2.functionality = []
  · have nowhere : ancestors t.2.functionality = [] := by simp [ancestors, empty]
    refine ⟨by simpa [add, empty] using gathered.nodup, fun path => ?_⟩
    simp only [add, empty, List.isEmpty_nil, if_true, gathered.get?, listed_concat, entryOf_concat,
      nowhere, List.not_mem_nil, or_false, if_false]
  · have step : add t.1 i t.2 =
        countOn ((ancestors t.2.functionality).foldl (note t.1) i)
          (normalize t.2.functionality) := by
      simp [add, empty]
    rw [step]
    refine ⟨Entries.nodup_keys_alter (nodup_keys_note gathered.nodup _ _) _ _, fun path => ?_⟩
    have last := normalize_mem_ancestors empty
    rw [countOn, Entries.get?_alter, get?_foldl_note t.1 (nodup_ancestors _),
      get?_foldl_note t.1 (nodup_ancestors _), gathered.getD, gathered.getD, if_pos last,
      entryOf_concat]
    by_cases own : path = normalize t.2.functionality
    · subst own
      simp [last, listed_concat]
    · by_cases above : path ∈ ancestors t.2.functionality
      · simp [own, above, listed_concat]
      · simp [own, above, listed_concat, gathered.get?]

theorem gather_eq (c : Corpus) : gather c = c.tagged.foldl (fun i t => add t.1 i t.2) [] := by
  rw [gather, Corpus.tagged, List.foldl_flatMap]
  simp only [List.foldl_map]

/-- **The whole run.** -/
theorem gathered_gather (c : Corpus) : Gathered c.tagged (gather c) := by
  rw [gather_eq]
  induction c.tagged using List.reverseRecOn with
  | nil => exact ⟨List.nodup_nil, fun path => by simp [Listed]⟩
  | append_singleton ts t ih =>
      rw [List.foldl_append]
      exact gathered_add ih t

/-! ## Finishing -/

theorem mem_childrenOf {ts : List (Text × Group)} {i : Index} (gathered : Gathered ts i)
    {path below : Text} :
    below ∈ childrenOf i path ↔ Listed ts below ∧ parent? below = some path := by
  rw [childrenOf, Text.mem_sort, List.mem_map]
  constructor
  · rintro ⟨⟨key, e⟩, member, rfl⟩
    rw [List.mem_filter, beq_iff_eq, ← Entries.get?_eq_some_iff gathered.nodup,
      gathered.get?] at member
    obtain ⟨found, parent⟩ := member
    split at found
    · rename_i listed
      cases found
      exact ⟨listed, parent⟩
    · cases found
  · rintro ⟨listed, parent⟩
    refine ⟨(below, entryOf ts below), ?_, rfl⟩
    rw [List.mem_filter, beq_iff_eq, ← Entries.get?_eq_some_iff gathered.nodup, gathered.get?,
      if_pos listed]
    exact ⟨rfl, parent⟩

theorem pairwise_childrenOf {i : Index} (nodup : (Entries.keys i).Nodup) (path : Text) :
    (childrenOf i path).Pairwise (· < ·) :=
  Text.pairwise_sort (nodup.sublist (List.filter_sublist.map Prod.fst))

theorem IsEntry.unique {ts : List (Text × Group)} {path : Text} {e e' : IndexEntry}
    (h : IsEntry ts path e) (h' : IsEntry ts path e') : e = e' := by
  obtain ⟨level, parent, children, groupCount, fileTypes⟩ := e
  obtain ⟨level', parent', children', groupCount', fileTypes'⟩ := e'
  have sameChildren : children = children' :=
    Text.eq_of_pairwise_of_mem_iff h.children h'.children fun p =>
      (h.mem_children p).trans (h'.mem_children p).symm
  have sameTypes : fileTypes = fileTypes' :=
    Text.eq_of_pairwise_of_mem_iff h.fileTypes h'.fileTypes fun t =>
      (h.mem_fileTypes t).trans (h'.mem_fileTypes t).symm
  simp only [IndexEntry.mk.injEq]
  exact ⟨h.level.trans h'.level.symm, h.parent.trans h'.parent.symm, sameChildren,
    h.groupCount.trans h'.groupCount.symm, sameTypes⟩

theorem nodup_keys_ofCorpus (c : Corpus) : (Entries.keys (ofCorpus c)).Nodup := by
  rw [ofCorpus, finish, Entries.keys_map]
  exact (gathered_gather c).nodup

/-- **The index has an entry for exactly the listed paths, and it is what an entry has to be.** -/
theorem get?_ofCorpus_eq_some_iff {c : Corpus} {path : Text} {e : IndexEntry} :
    Entries.get? (ofCorpus c) path = some e ↔
      Listed c.tagged path ∧ IsEntry c.tagged path e := by
  have gathered := gathered_gather c
  rw [ofCorpus, finish, Entries.get?_map, gathered.get?]
  by_cases listed : Listed c.tagged path
  · have isEntry : IsEntry c.tagged path
        { entryOf c.tagged path with
          children := childrenOf (gather c) path
          fileTypes := Text.sort (Text.distinct (typesBelow c.tagged path)) } :=
      { level := rfl
        parent := rfl
        groupCount := rfl
        children := pairwise_childrenOf gathered.nodup path
        mem_children := fun below => mem_childrenOf gathered
        fileTypes := Text.pairwise_sort (Text.nodup_distinct _)
        mem_fileTypes := fun t => by rw [Text.mem_sort, Text.mem_distinct] }
    rw [if_pos listed, Option.map_some, Option.some.injEq]
    constructor
    · rintro rfl
      exact ⟨listed, isEntry⟩
    · exact fun ⟨_, isEntry'⟩ => isEntry.unique isEntry'
  · simp [listed]

theorem mem_keys_ofCorpus {c : Corpus} {path : Text} :
    path ∈ Entries.keys (ofCorpus c) ↔ Listed c.tagged path := by
  rw [ofCorpus, finish, Entries.keys_map, ← not_iff_not, ← Entries.get?_eq_none_iff,
    (gathered_gather c).get?]
  simp

/-! ## The order of the groups -/

theorem Listed.perm {ts ts' : List (Text × Group)} (perm : ts.Perm ts') {path : Text} :
    Listed ts path ↔ Listed ts' path := by
  simp only [Listed, perm.mem_iff]

theorem IsEntry.perm {ts ts' : List (Text × Group)} (perm : ts.Perm ts') {path : Text}
    {e : IndexEntry} (isEntry : IsEntry ts path e) : IsEntry ts' path e :=
  { isEntry with
    groupCount := isEntry.groupCount.trans (perm.countP_eq _)
    mem_children := fun below => by rw [isEntry.mem_children, Listed.perm perm]
    mem_fileTypes := fun t => by
      rw [isEntry.mem_fileTypes]
      exact ((perm.filter _).map Prod.fst).mem_iff }

section Renewed

variable {f : Group → Group} (same : ∀ g, (f g).functionality = g.functionality)
  {ts : List (Text × Group)} {path : Text}

include same

theorem listed_map : Listed (ts.map (Prod.map id f)) path ↔ Listed ts path := by
  simp [Listed, same]

/-- Of a group only its name counts. -/
theorem isEntry_map {e : IndexEntry} :
    IsEntry (ts.map (Prod.map id f)) path e ↔ IsEntry ts path e := by
  have count : standing (ts.map (Prod.map id f)) path = standing ts path := by
    simp only [standing, List.countP_map, Function.comp_def, Prod.map_snd, same]
  have types : typesBelow (ts.map (Prod.map id f)) path = typesBelow ts path := by
    simp only [typesBelow, List.filter_map, List.map_map, Function.comp_def, Prod.map_fst,
      Prod.map_snd, same, id_eq]
  constructor
  · intro isEntry
    exact { isEntry with
      groupCount := isEntry.groupCount.trans count
      mem_children := fun below => (isEntry.mem_children below).trans (by rw [listed_map same])
      mem_fileTypes := fun t => by rw [isEntry.mem_fileTypes, types] }
  · intro isEntry
    exact { isEntry with
      groupCount := isEntry.groupCount.trans count.symm
      mem_children := fun below => (isEntry.mem_children below).trans (by rw [listed_map same])
      mem_fileTypes := fun t => by rw [isEntry.mem_fileTypes, types] }

end Renewed

section Thinned

variable {p : Text × Group → Bool} {ts : List (Text × Group)} {path : Text}

/-- Groups without segments are above nothing. -/
theorem ancestors_of_segments {name : Text} (none_ : segments name = []) : ancestors name = [] := by
  simp [ancestors, none_]

section Harmless

variable (rest : ∀ t ∈ ts, p t = false → segments t.2.functionality = [])

include rest

theorem kept_of_mem_ancestors {t : Text × Group} (member : t ∈ ts)
    (above : path ∈ ancestors t.2.functionality) : p t = true := by
  by_contra dropped
  rw [ancestors_of_segments (rest t member (by simpa using dropped))] at above
  cases above

theorem listed_filter : Listed (ts.filter p) path ↔ Listed ts path := by
  constructor
  · rintro ⟨t, member, above⟩
    exact ⟨t, List.mem_of_mem_filter member, above⟩
  · rintro ⟨t, member, above⟩
    exact ⟨t, List.mem_filter.mpr ⟨member, kept_of_mem_ancestors rest member above⟩, above⟩

/-- Groups that stand nowhere do not count. -/
theorem isEntry_filter {e : IndexEntry} : IsEntry (ts.filter p) path e ↔ IsEntry ts path e := by
  have count : standing (ts.filter p) path = standing ts path := by
    rw [standing, standing, List.countP_filter]
    refine List.countP_congr fun t member => ?_
    simp only [Bool.and_eq_true, decide_eq_true_eq]
    exact ⟨And.left, fun own => ⟨own, kept_of_mem_ancestors rest member own.1⟩⟩
  have types : typesBelow (ts.filter p) path = typesBelow ts path := by
    rw [typesBelow, typesBelow, List.filter_filter]
    refine congrArg _ (List.filter_congr fun t member => ?_)
    rw [Bool.eq_iff_iff, Bool.and_eq_true, decide_eq_true_eq]
    exact ⟨And.left, fun above => ⟨above, kept_of_mem_ancestors rest member above⟩⟩
  constructor
  · intro isEntry
    exact { isEntry with
      groupCount := isEntry.groupCount.trans count
      mem_children := fun below => (isEntry.mem_children below).trans (by rw [listed_filter rest])
      mem_fileTypes := fun t => by rw [isEntry.mem_fileTypes, types] }
  · intro isEntry
    exact { isEntry with
      groupCount := isEntry.groupCount.trans count.symm
      mem_children := fun below => (isEntry.mem_children below).trans (by rw [listed_filter rest])
      mem_fileTypes := fun t => by rw [isEntry.mem_fileTypes, types] }

end Harmless

/-- A group that stands somewhere is missed in the count of its own path. -/
theorem standing_filter_lt {t : Text × Group} (member : t ∈ ts) (dropped : p t = false)
    (some_ : segments t.2.functionality ≠ []) :
    standing (ts.filter p) (normalize t.2.functionality) <
      standing ts (normalize t.2.functionality) := by
  have less : ∀ q : Text × Group → Bool, q t = true → (ts.filter p).countP q < ts.countP q := by
    intro q own
    rw [List.countP_eq_countP_filter_add ts q p]
    exact Nat.lt_add_of_pos_right
      (List.countP_pos_iff.mpr ⟨t, by simp [member, dropped], own⟩)
  exact less _ (by simp [normalize_mem_ancestors some_])

/-- **Which groups an index needs**: leaving some out leaves every entry as it is exactly if they
stand nowhere. -/
theorem get?_ofCorpus_filter_iff {c c' : Corpus} {f : Group → Group}
    (same : ∀ g, (f g).functionality = g.functionality)
    (left : c'.tagged = (c.tagged.filter p).map (Prod.map id f)) :
    (∀ path, Entries.get? (ofCorpus c) path = Entries.get? (ofCorpus c') path) ↔
      ∀ t ∈ c.tagged, p t = false → segments t.2.functionality = [] := by
  constructor
  · intro agree t member dropped
    by_contra some_
    have listed : Listed c.tagged (normalize t.2.functionality) :=
      ⟨t, member, normalize_mem_ancestors some_⟩
    obtain ⟨e, found⟩ : ∃ e, Entries.get? (ofCorpus c) (normalize t.2.functionality) = some e := by
      rw [← Option.ne_none_iff_exists', ne_eq, Entries.get?_eq_none_iff, not_not]
      exact mem_keys_ofCorpus.mpr listed
    have there := (get?_ofCorpus_eq_some_iff.mp found).2.groupCount
    have here := (get?_ofCorpus_eq_some_iff.mp ((agree _).symm.trans found)).2
    rw [left, isEntry_map same] at here
    have less := standing_filter_lt member dropped some_
    have := here.groupCount
    omega
  · intro rest path
    refine Option.ext fun e => ?_
    rw [get?_ofCorpus_eq_some_iff, get?_ofCorpus_eq_some_iff, left, listed_map same,
      isEntry_map same, listed_filter rest, isEntry_filter rest]

end Thinned

/-- **No look-up depends on the order of the groups**, nor on anything in them but their names. -/
theorem get?_ofCorpus_congr {c c' : Corpus} {f : Group → Group}
    (same : ∀ g, (f g).functionality = g.functionality)
    (perm : (c.tagged.map (Prod.map id f)).Perm (c'.tagged.map (Prod.map id f))) (path : Text) :
    Entries.get? (ofCorpus c) path = Entries.get? (ofCorpus c') path := by
  refine Option.ext fun e => ?_
  rw [get?_ofCorpus_eq_some_iff, get?_ofCorpus_eq_some_iff, ← listed_map same, Listed.perm perm,
    listed_map same, ← isEntry_map same, ← @isEntry_map f same c'.tagged]
  exact and_congr_right fun _ => ⟨.perm perm, .perm perm.symm⟩

end CodeAtlas.Hierarchy.Index
