/-
# Proofs.Hierarchy.Agreement -- the index and the forest describe the same paths

The forest of a corpus is grown tree by tree along the segments of its groups, and forgets the
types; the index is a flat map from spelled paths, with the links between them filled in afterwards.
Here the two are compared.  A node stands at a path (`Forest.Stands`) and the index lists the
spellings of the same paths (`listed_format`), so each entry can be compared with its node:
`Describes` says what an entry has to say about a node, and `index_describes_forest` that there is
one entry for every node, no other, and that each describes its own.
-/
import CodeAtlas.Proofs.Hierarchy.Forest
import CodeAtlas.Proofs.Hierarchy.Index

namespace CodeAtlas.Hierarchy

set_option autoImplicit false

open Forest (ofGroups walk preorder preorderNode Shows Stands Reached standingAt mem_walk_stands)

/-- **What an entry of the index of `c` says about a node of the forest of its groups.** -/
structure Describes (c : Corpus) (n : Node) (e : IndexEntry) : Prop where
  level : e.level = n.level
  groupCount : e.groupCount = n.groups.length
  /-- The children are those of the node, in strictly ascending order. -/
  children : e.children.Pairwise (· < ·)
  children_perm : e.children.Perm (n.children.map Node.fullPath)
  /-- The file types are those with a group at or below the node, in strictly ascending order. -/
  fileTypes : e.fileTypes.Pairwise (· < ·)
  mem_fileTypes : ∀ fileType, fileType ∈ e.fileTypes ↔
    ∃ entry ∈ c, entry.1 = fileType ∧ ∃ g ∈ entry.2, ∃ m ∈ preorderNode n, g.placed ∈ m.groups

/-! ## Paths and their spellings -/

variable {c : Corpus} {P : List Text} {n : Node}

theorem listed_format (path : IsPath P) (some_ : P ≠ []) :
    Index.Listed c.tagged (format P) ↔ Reached c.groups P := by
  rw [Index.Listed, Reached, Corpus.groups_eq_map_tagged]
  simp only [format_mem_ancestors path some_, List.mem_map, exists_exists_and_eq_and]

theorem exists_of_listed {path : Text} (listed : Index.Listed c.tagged path) :
    ∃ P, P ≠ [] ∧ Reached c.groups P ∧ path = format P := by
  obtain ⟨t, member, above⟩ := listed
  obtain ⟨P, some_, initial, rfl⟩ := mem_ancestors.mp above
  refine ⟨P, some_, ⟨t.2, ?_, initial⟩, rfl⟩
  rw [Corpus.groups_eq_map_tagged]
  exact List.mem_map.mpr ⟨t, member, rfl⟩

theorem Forest.Stands.listed (stands : Stands c.groups P n) (some_ : P ≠ []) :
    Index.Listed c.tagged n.fullPath := by
  rw [stands.isAt.fullPath]
  exact (listed_format stands.isPath some_).mpr stands.reached

/-! ## The parts of an entry -/

theorem standing_eq_length (stands : Stands c.groups P n) (some_ : P ≠ []) :
    Index.standing c.tagged n.fullPath = n.groups.length := by
  rw [stands.isAt.groups, standingAt, List.length_map, ← List.countP_eq_length_filter,
    Corpus.groups_eq_map_tagged, List.countP_map, Index.standing, stands.isAt.fullPath]
  refine List.countP_congr fun t _ => ?_
  have path := isPath_segments t.2.functionality
  simp only [Bool.and_eq_true, decide_eq_true_eq, Function.comp_apply,
    format_mem_ancestors stands.isPath some_, normalize, format_inj stands.isPath path]
  constructor
  · exact fun both => both.2.symm
  · exact fun here => ⟨here ▸ List.prefix_rfl, here.symm⟩

/-- The listed paths one level below a node are those of its children. -/
theorem mem_children_iff (stands : Stands c.groups P n) (some_ : P ≠ []) {below : Text} :
    Index.Listed c.tagged below ∧ parent? below = some n.fullPath ↔
      below ∈ n.children.map Node.fullPath := by
  rw [stands.isAt.fullPath, List.mem_map]
  constructor
  · rintro ⟨listed, parent⟩
    obtain ⟨Q, -, reached, rfl⟩ := exists_of_listed listed
    rw [parent?_format reached.isPath] at parent
    split at parent
    · cases parent
    · rw [Option.some.injEq, format_inj (reached.isPath.of_initial (List.dropLast_prefix Q))
        stands.isPath] at parent
      subst parent
      have whole := List.dropLast_append_getLast (l := Q) (by rintro rfl; simp at some_)
      rw [← whole] at reached ⊢
      obtain ⟨distinct, complete, isAt, -⟩ := stands.below
      obtain ⟨m, child, same⟩ := List.mem_map.mp ((complete _).mpr reached)
      exact ⟨m, child, by rw [(isAt m child).fullPath, same]⟩
  · rintro ⟨m, child, rfl⟩
    have stands' := stands.below.stands_root child
    refine ⟨stands'.listed (by simp), ?_⟩
    rw [stands'.isAt.fullPath, parent?_format stands'.isPath, List.dropLast_concat, if_neg some_]

theorem nodup_children (stands : Stands c.groups P n) :
    (n.children.map Node.fullPath).Nodup := by
  obtain ⟨distinct, complete, isAt, -⟩ := stands.below
  have spelled : n.children.map Node.fullPath =
      (n.children.map Node.name).map fun s => format (P ++ [s]) := by
    rw [List.map_map]
    exact List.map_congr_left fun m child => (isAt m child).fullPath
  rw [spelled]
  refine distinct.map_on fun s hs t ht same => ?_
  rw [format_inj ((complete s).mp hs).isPath ((complete t).mp ht).isPath] at same
  simpa using same

theorem mem_typesBelow_iff (stands : Stands c.groups P n) (some_ : P ≠ []) {fileType : Text} :
    fileType ∈ Index.typesBelow c.tagged n.fullPath ↔
      ∃ entry ∈ c, entry.1 = fileType ∧
        ∃ g ∈ entry.2, ∃ m ∈ preorderNode n, g.placed ∈ m.groups := by
  have member : fileType ∈ Index.typesBelow c.tagged n.fullPath ↔
      ∃ g, (fileType, g) ∈ c.tagged ∧ P <+: segments g.functionality := by
    simp [Index.typesBelow, stands.isAt.fullPath, format_mem_ancestors stands.isPath some_]
  have grouped : ∀ {t g}, (t, g) ∈ c.tagged → g ∈ c.groups := fun {t g} inside => by
    rw [Corpus.groups_eq_map_tagged]
    exact List.mem_map.mpr ⟨(t, g), inside, rfl⟩
  rw [member]
  constructor
  · rintro ⟨g, inside, Q, whole⟩
    obtain ⟨entry, here, type, known⟩ := Corpus.mem_tagged.mp inside
    have reached : Reached c.groups (P ++ Q) := ⟨g, grouped inside, whole ▸ List.prefix_rfl⟩
    obtain ⟨m, below, stands'⟩ := stands.exists_mem_preorderNode reached
    refine ⟨entry, here, type, g, known, m, below, ?_⟩
    rw [stands'.isAt.groups, standingAt]
    refine List.mem_map.mpr ⟨g, List.mem_filter.mpr ⟨grouped inside, ?_⟩, rfl⟩
    simp [whole]
  · rintro ⟨entry, here, type, g, known, m, below, placed⟩
    obtain ⟨Q, stands'⟩ := stands.mem_preorderNode below
    rw [stands'.isAt.groups, standingAt, List.mem_map] at placed
    obtain ⟨g', member', same⟩ := placed
    have name := congrArg Group.functionality same
    change g'.functionality = g.functionality at name
    rw [List.mem_filter, decide_eq_true_eq, name] at member'
    exact ⟨g, Corpus.mem_tagged.mpr ⟨entry, here, type, known⟩, Q, member'.2.symm⟩

theorem describes_of_isEntry (stands : Stands c.groups P n) (some_ : P ≠ []) {e : IndexEntry}
    (isEntry : Index.IsEntry c.tagged n.fullPath e) : Describes c n e :=
  { level := by rw [isEntry.level, stands.segments_fullPath, stands.isAt.level]
    groupCount := isEntry.groupCount.trans (standing_eq_length stands some_)
    children := isEntry.children
    children_perm :=
      (List.perm_ext_iff_of_nodup (isEntry.children.imp fun less => less.ne)
        (nodup_children stands)).mpr fun below =>
          (isEntry.mem_children below).trans (mem_children_iff stands some_)
    fileTypes := isEntry.fileTypes
    mem_fileTypes := fun fileType =>
      (isEntry.mem_fileTypes fileType).trans (mem_typesBelow_iff stands some_) }

/-! ## The keys and the levels -/

theorem listed_iff_mem_walk {path : Text} :
    Index.Listed c.tagged path ↔ path ∈ (walk (ofGroups c.groups)).map Node.fullPath := by
  rw [Forest.mem_paths_ofGroups, Index.Listed, Corpus.groups_eq_map_tagged]
  simp only [List.mem_map, exists_exists_and_eq_and]

theorem exists_entry (stands : Stands c.groups P n) (some_ : P ≠ []) :
    ∃ e, Entries.get? (Index.ofCorpus c) n.fullPath = some e ∧
      Index.IsEntry c.tagged n.fullPath e := by
  have key := Index.mem_keys_ofCorpus.mpr (stands.listed some_)
  cases found : Entries.get? (Index.ofCorpus c) n.fullPath with
  | none => exact absurd key (Entries.get?_eq_none_iff.mp found)
  | some e => exact ⟨e, rfl, (Index.get?_ofCorpus_eq_some_iff.mp found).2⟩

theorem depth_le_iff (gs : List Group) (bound : Nat) :
    depth gs ≤ bound ↔ ∀ g ∈ gs, (segments g.functionality).length ≤ bound := by
  have run : ∀ (gs : List Group) (d : Nat),
      gs.foldl (fun d g => max d (segments g.functionality).length) d ≤ bound ↔
        d ≤ bound ∧ ∀ g ∈ gs, (segments g.functionality).length ≤ bound := by
    intro gs
    induction gs with
    | nil => simp
    | cons g gs ih =>
        intro d
        rw [List.foldl_cons, ih, Nat.max_le, List.forall_mem_cons, and_assoc]
  rw [depth, run]
  simp

/-- The greatest level of a list of nodes, 0 when there is none. -/
def greatestLevel (nodes : List Node) : Nat := (nodes.map Node.level).max?.getD 0

theorem greatestLevel_le_iff (nodes : List Node) (bound : Nat) :
    greatestLevel nodes ≤ bound ↔ ∀ n ∈ nodes, n.level ≤ bound := by
  rw [greatestLevel]
  cases greatest : (nodes.map Node.level).max? with
  | none =>
      have empty : nodes = [] := by simpa using greatest
      simp [empty]
  | some level =>
      rw [Option.getD_some, List.max?_le_iff greatest]
      simp

theorem greatestLevel_eq_depth (c : Corpus) :
    greatestLevel (walk (ofGroups c.groups)) = depth c.groups := by
  refine le_antisymm ?_ ?_
  · rw [greatestLevel_le_iff]
    intro n member
    obtain ⟨P, -, stands⟩ := mem_walk_stands member
    obtain ⟨g, known, initial⟩ := stands.reached
    rw [stands.isAt.level]
    exact initial.length_le.trans ((depth_le_iff _ _).mp le_rfl g known)
  · rw [depth_le_iff]
    intro g known
    cases path : segments g.functionality with
    | nil => exact Nat.zero_le _
    | cons s P =>
        have reached : Reached c.groups ([] ++ s :: P) := ⟨g, known, path ▸ List.prefix_rfl⟩
        obtain ⟨m, member, stands⟩ := (Forest.shows_ofGroups c.groups).exists_node reached
        rw [← Forest.walk_eq_preorder] at member
        have level := (greatestLevel_le_iff _ _).mp le_rfl m member
        rwa [stands.isAt.level] at level

/-! ## The agreement -/

/-- **The index of a corpus and the forest of its groups describe the same paths.**  The keys of the
index are the paths of the nodes, each once, so there are as many entries as the walk visits nodes.
Every node has an entry that describes it; the entry of a root has no parent, the entry of a node
below another has that node's path as its parent.  The greatest level of a node is the depth of the
groups. -/
theorem index_describes_forest (c : Corpus) :
    (Entries.keys (Index.ofCorpus c)).Perm ((walk (ofGroups c.groups)).map Node.fullPath) ∧
    (Index.ofCorpus c).length = (walk (ofGroups c.groups)).length ∧
    (∀ n ∈ walk (ofGroups c.groups), ∃ e,
      Entries.get? (Index.ofCorpus c) n.fullPath = some e ∧ Describes c n e) ∧
    (∀ n ∈ ofGroups c.groups, ∃ e,
      Entries.get? (Index.ofCorpus c) n.fullPath = some e ∧ e.parent = none) ∧
    (∀ above ∈ walk (ofGroups c.groups), ∀ n ∈ above.children, ∃ e,
      Entries.get? (Index.ofCorpus c) n.fullPath = some e ∧ e.parent = some above.fullPath) ∧
    greatestLevel (walk (ofGroups c.groups)) = depth c.groups := by
  have perm : (Entries.keys (Index.ofCorpus c)).Perm
      ((walk (ofGroups c.groups)).map Node.fullPath) := by
    have distinct := (Forest.shows_ofGroups c.groups).nodup_preorder
    rw [← Forest.walk_eq_preorder] at distinct
    refine (List.perm_ext_iff_of_nodup (Index.nodup_keys_ofCorpus c) distinct).mpr fun path => ?_
    rw [Index.mem_keys_ofCorpus, listed_iff_mem_walk]
  refine ⟨perm, ?_, ?_, ?_, ?_, greatestLevel_eq_depth c⟩
  · simpa [Entries.keys] using perm.length_eq
  · intro n member
    obtain ⟨P, some_, stands⟩ := mem_walk_stands member
    obtain ⟨e, found, isEntry⟩ := exists_entry stands some_
    exact ⟨e, found, describes_of_isEntry stands some_ isEntry⟩
  · intro n root
    have stands := (Forest.shows_ofGroups c.groups).stands_root root
    obtain ⟨e, found, isEntry⟩ := exists_entry stands (by simp)
    refine ⟨e, found, ?_⟩
    rw [isEntry.parent, stands.isAt.fullPath, parent?_format stands.isPath]
    simp
  · intro above member n child
    obtain ⟨P, some_, stands⟩ := mem_walk_stands member
    have stands' := stands.below.stands_root child
    obtain ⟨e, found, isEntry⟩ := exists_entry stands' (by simp)
    refine ⟨e, found, ?_⟩
    rw [isEntry.parent, stands'.isAt.fullPath, parent?_format stands'.isPath, List.dropLast_concat,
      if_neg some_, stands.isAt.fullPath]

end CodeAtlas.Hierarchy
