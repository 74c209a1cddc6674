/-
# Proofs.Hierarchy.Arrangement -- every group is in one place of the forest

A node is reached from the roots by the names along its trail (`Trail`), and the walk visits the
nodes that have one (`mem_walk_iff`).  In the forest of a list of groups the trail of a node is its
path, so what `Shows` and `Ordered` know of a node at its path holds of every node of the walk.
`Arranges` says it in terms of the names and their spellings alone, without speaking of how the forest
was grown, and `arranges_ofGroups` proves it; that every group with a segment is in one place
(`Arranges.placed`) follows, since a group is at the node with its path and no path has two nodes.

A forest keeps the nodes one level below a node as a list.  `Branch.ofGroups` grows the hierarchy with
a map from names at every node instead: it takes what is under the next segment, or puts a new node
there.  The maps are the lists with every tree under its own name (`Branch.ofGroups_eq`).
-/
import CodeAtlas.Proofs.Entries
import CodeAtlas.Proofs.Hierarchy.Descendant
import CodeAtlas.Proofs.Hierarchy.Siblings

namespace CodeAtlas.Hierarchy

set_option autoImplicit false

/-! ## Maps of nodes -/

/-- A node with a map of the nodes one level below it. -/
structure Branch where
  name : Text
  fullPath : Text
  level : Nat
  groups : List Group := []
  children : List (Text × Branch) := []

namespace Branch

/-- Attach `g` below the path `above` of level `depth`, along the remaining segments: what is under
the next segment is changed, and made where nothing is under it. -/
def insertAt (g : Group) (above : Text) (depth : Nat) : List Text → Entries Branch → Entries Branch
  | [], branches => branches
  | s :: rest, branches =>
      let path := if above.isEmpty then s else above ++ separator ++ s
      branches.alter s fun known =>
        let n := known.getD { name := s, fullPath := path, level := depth + 1 }
        if rest.isEmpty then { n with groups := n.groups ++ [g] }
        else { n with children := insertAt g path (depth + 1) rest n.children }

def insert (branches : Entries Branch) (g : Group) : Entries Branch :=
  insertAt g.placed [] 0 (segments g.functionality) branches

def ofGroups (groups : List Group) : Entries Branch := groups.foldl insert []

mutual

def ofNode : Node → Branch
  | ⟨name, fullPath, level, groups, children⟩ =>
      { name, fullPath, level, groups, children := ofForest children }

/-- Every tree under its own name. -/
def ofForest : List Node → Entries Branch
  | [] => []
  | n :: rest => (n.name, ofNode n) :: ofForest rest

end

theorem alter_ofForest {fresh : Node} {s : Text} {f : Node → Node} {f' : Option Branch → Branch}
    (named : fresh.name = s) (keeps : ∀ n, (f n).name = n.name) (new : f' none = ofNode (f fresh))
    (known : ∀ n, f' (some (ofNode n)) = ofNode (f n)) (F : Forest) :
    (ofForest F).alter s f' = ofForest (Forest.alter fresh f F) := by
  subst named
  induction F with
  | nil => rw [ofForest, Entries.alter, Forest.alter, ofForest, ofForest, keeps, new]
  | cons n F ih =>
      rw [ofForest, Entries.alter_cons, Forest.alter]
      by_cases here : n.name = fresh.name
      · rw [if_pos here, if_pos (beq_iff_eq.mpr here), ofForest, keeps, known]
      · rw [if_neg here, if_neg (by simpa using here), ofForest, ih]

theorem insertAt_ofForest (g : Group) {rest : List Text} :
    ∀ (above : Text) (depth : Nat) (F : Forest),
      insertAt g above depth rest (ofForest F) = ofForest (Forest.insertAt g above depth rest F) := by
  induction rest with
  | nil => exact fun _ _ _ => rfl
  | cons s rest ih =>
      intro above depth F
      rw [insertAt, Forest.insertAt]
      generalize (if above.isEmpty then s else above ++ separator ++ s) = path
      have grown : ∀ n : Node,
          (if rest.isEmpty then { ofNode n with groups := (ofNode n).groups ++ [g] }
            else { ofNode n with
              children := insertAt g path (depth + 1) rest (ofNode n).children }) =
          ofNode (if rest.isEmpty then { n with groups := n.groups ++ [g] }
            else { n with children := Forest.insertAt g path (depth + 1) rest n.children }) := by
        rintro ⟨name, fullPath, level, groups, children⟩
        split
        · rfl
        · simp only [ofNode, ih]
      refine alter_ofForest ?_ ?_ ?_ ?_ F
      · rfl
      · intro n
        split <;> rfl
      · exact grown { name := s, fullPath := path, level := depth + 1 }
      · exact grown

theorem ofGroups_eq (gs : List Group) : ofGroups gs = ofForest (Forest.ofGroups gs) := by
  induction gs using List.reverseRecOn with
  | nil => rfl
  | append_singleton gs g ih =>
      rw [ofGroups, List.foldl_append, Forest.ofGroups, List.foldl_append]
      exact (congrArg (insert · g) ih).trans (insertAt_ofForest g.placed [] 0 _)

end Branch

namespace Forest

/-! ## Trails -/

/-- The node is reached from the roots by way of nodes with these names, its own the last. -/
inductive Trail (F : Forest) : List Text → Node → Prop
  | root {n : Node} (member : n ∈ F) : Trail F [n.name] n
  | child {P : List Text} {m n : Node} (trail : Trail F P m) (member : n ∈ m.children) :
      Trail F (P ++ [n.name]) n

section Trail

variable {F G : Forest} {P : List Text} {n : Node}

theorem Trail.mono (trail : Trail F P n) (sub : F ⊆ G) : Trail G P n := by
  induction trail with
  | root member => exact .root (sub member)
  | child trail member ih => exact .child ih member

theorem Trail.under {k : Node} (trail : Trail k.children P n) (member : k ∈ F) :
    Trail F (k.name :: P) n := by
  induction trail with
  | root member' => exact .child (.root member) member'
  | child trail member' ih => exact .child ih member'

theorem Trail.or_of_append (trail : Trail (F ++ G) P n) : Trail F P n ∨ Trail G P n := by
  induction trail with
  | root member => exact (List.mem_append.mp member).imp .root .root
  | child trail member ih => exact ih.imp (.child · member) (.child · member)

theorem mem_walk_of_mem (member : n ∈ F) : n ∈ walk F := by
  rw [walk_eq_preorder, mem_preorder]
  exact ⟨n, member, .inl rfl⟩

/-- What is visited is visited with all that is below it. -/
theorem mem_walk_of_mem_children {m : Node} (visited : m ∈ walk F) (member : n ∈ m.children) :
    n ∈ walk F := by
  induction F using walk.induct with
  | case1 => simp [walk] at visited
  | case2 k rest ih =>
      rw [walk, List.mem_cons] at visited ⊢
      rcases visited with rfl | later
      · exact .inr (mem_walk_of_mem (List.mem_append_left rest member))
      · exact .inr (ih later)

/-- **The walk visits the nodes that have a trail.** -/
theorem mem_walk_iff : n ∈ walk F ↔ ∃ P, Trail F P n := by
  constructor
  · intro visited
    induction F using walk.induct with
    | case1 => simp [walk] at visited
    | case2 k rest ih =>
        rw [walk, List.mem_cons] at visited
        rcases visited with rfl | later
        · exact ⟨[n.name], .root List.mem_cons_self⟩
        · obtain ⟨P, trail⟩ := ih later
          rcases trail.or_of_append with below | beside
          · exact ⟨k.name :: P, below.under List.mem_cons_self⟩
          · exact ⟨P, beside.mono (List.subset_cons_self k rest)⟩
  · rintro ⟨P, trail⟩
    induction trail with
    | root member => exact mem_walk_of_mem member
    | child trail member ih => exact mem_walk_of_mem_children ih member

variable {gs : List Group}

theorem Trail.stands (trail : Trail F P n) (shows_ : Shows gs [] F) : Stands gs P n := by
  induction trail with
  | root member => exact shows_.stands_root member
  | child trail member ih => exact ih.below.stands_root member

theorem Trail.ordered (trail : Trail F P n) (ordered : Ordered gs [] F) :
    Ordered gs P n.children := by
  induction trail with
  | root member => exact ordered.children member
  | child trail member ih => exact ih.children member

end Trail

/-! ## By spelled paths -/

section Spelled

variable {gs : List Group} {P : List Text} {n : Node}

theorem Stands.segments_eq_iff (stands : Stands gs P n) (name : Text) :
    segments name = P ↔ normalize name = n.fullPath := by
  rw [stands.isAt.fullPath, normalize, format_inj (isPath_segments name) stands.isPath]

/-- A path goes through a node exactly if it is that of the node or one below it. -/
theorem Stands.initial_iff (stands : Stands gs P n) (some_ : P ≠ []) (name : Text) :
    P <+: segments name ↔
      normalize name = n.fullPath ∨ isDescendant (normalize name) n.fullPath = true := by
  have here := stands.segments_fullPath
  rw [← stands.segments_eq_iff, isDescendant_iff, normalize_mem_dropLast_ancestors, here,
    normalize, segments_format (isPath_segments name)]
  constructor
  · intro initial
    by_cases same : segments name = P
    · exact .inl same
    · exact .inr (.inl ⟨some_, initial, Ne.symm same⟩)
  · rintro (rfl | ⟨-, initial, -⟩ | ⟨-, none_, -⟩)
    · exact List.prefix_rfl
    · exact initial
    · exact absurd none_ some_

theorem Stands.groups_eq (stands : Stands gs P n) :
    n.groups =
      (gs.filter fun g => normalize g.functionality = n.fullPath).map Group.placed := by
  rw [stands.isAt.groups, standingAt]
  simp only [stands.segments_eq_iff]

theorem Stands.countNode_eq_countP (stands : Stands gs P n) (some_ : P ≠ []) :
    countNode n = gs.countP fun g => normalize g.functionality = n.fullPath ∨
      isDescendant (normalize g.functionality) n.fullPath = true := by
  rw [stands.countNode_eq]
  simp only [stands.initial_iff some_]

theorem length_onward_nil (gs : List Group) :
    (onward gs []).length = gs.countP fun g => segments g.functionality ≠ [] := by
  rw [onward, List.length_filterMap_eq_countP]
  refine List.countP_congr fun g _ => ?_
  have first := next?_append [] (segments g.functionality)
  rw [List.nil_append] at first
  simp [first]

end Spelled

/-! ## The arrangement -/

/-- **What a forest has to be to arrange a list of groups.** -/
structure Arranges (gs : List Group) (F : Forest) : Prop where
  /-- The roots come in the order in which they first begin a path. -/
  roots : F.map Node.name = Text.distinct (onward gs [])
  /-- The nodes below a node come in the order in which a path first goes on to them. -/
  siblings : ∀ P n, Trail F P n → n.children.map Node.name = Text.distinct (onward gs P)
  /-- The walk visits the nodes that are reached from the roots. -/
  visited : ∀ n, n ∈ walk F ↔ ∃ P, Trail F P n
  /-- The path of a node is made of the names from its root, and its level is their number. -/
  path : ∀ P n, Trail F P n → n.fullPath = format P ∧ n.level = P.length
  /-- No path has two nodes. -/
  nodup : ((walk F).map Node.fullPath).Nodup
  /-- The paths of the nodes are those of the groups and all above them. -/
  mem_paths : ∀ path, path ∈ (walk F).map Node.fullPath ↔
    ∃ g ∈ gs, path ∈ ancestors g.functionality
  /-- At a node are the groups with its path, in their order. -/
  groups : ∀ n ∈ walk F, n.groups =
    (gs.filter fun g => normalize g.functionality = n.fullPath).map Group.placed
  /-- At or below a node are counted the groups with its path or one below it. -/
  below : ∀ n ∈ walk F, countNode n =
    gs.countP fun g => normalize g.functionality = n.fullPath ∨
      isDescendant (normalize g.functionality) n.fullPath = true
  /-- Over the roots are counted the groups that have a segment. -/
  total : (F.map countNode).sum = gs.countP fun g => segments g.functionality ≠ []

/-- Taking the members of a list by keys, one key after the other, rearranges those that have one
of the keys. -/
theorem flatMap_filter_perm {keys : List Text} (nodup : keys.Nodup) (key : Group → Text)
    (gs : List Group) :
    (keys.flatMap fun k => gs.filter fun g => key g = k).Perm
      (gs.filter fun g => key g ∈ keys) := by
  induction keys with
  | nil => simp
  | cons k keys ih =>
      obtain ⟨new, nodup⟩ := List.nodup_cons.mp nodup
      have parts := List.filter_append_perm (fun g => decide (key g = k))
        (gs.filter fun g => key g ∈ k :: keys)
      have first : (gs.filter fun g => key g ∈ k :: keys).filter (fun g => key g = k) =
          gs.filter fun g => key g = k := by
        rw [List.filter_filter]
        refine List.filter_congr fun g _ => ?_
        by_cases here : key g = k <;> simp [here]
      have rest : (gs.filter fun g => key g ∈ k :: keys).filter (fun g => !decide (key g = k)) =
          gs.filter fun g => key g ∈ keys := by
        rw [List.filter_filter]
        refine List.filter_congr fun g _ => ?_
        by_cases here : key g = k <;> simp [here, new]
      rw [first, rest] at parts
      exact ((ih nodup).append_left _).trans parts

/-- **Every group that has a segment is in one place**, and only such groups are in any. -/
theorem Arranges.placed {gs : List Group} {F : Forest} (arranges : Arranges gs F) :
    ((walk F).flatMap Node.groups).Perm
      ((gs.filter fun g => segments g.functionality ≠ []).map Group.placed) := by
  have byPath : (walk F).flatMap Node.groups =
      (((walk F).map Node.fullPath).flatMap fun path =>
        gs.filter fun g => normalize g.functionality = path).map Group.placed := by
    rw [List.map_flatMap, List.flatMap_map]
    exact List.flatMap_congr arranges.groups
  have listed : ∀ g ∈ gs, normalize g.functionality ∈ (walk F).map Node.fullPath ↔
      segments g.functionality ≠ [] := fun g known => by
    rw [arranges.mem_paths]
    constructor
    · rintro ⟨g', -, above⟩
      have some_ := segments_ne_nil_of_mem_ancestors above
      rwa [normalize, segments_format (isPath_segments _)] at some_
    · exact fun some_ => ⟨g, known, normalize_mem_ancestors some_⟩
  rw [byPath, ← List.filter_congr fun g known => decide_eq_decide.mpr (listed g known)]
  exact (flatMap_filter_perm arranges.nodup (fun g => normalize g.functionality) gs).map _

/-- **The hierarchy of a list of groups arranges them**: under every key is a node of that name, and
every group that has a segment is at one node. -/
theorem arranges_ofGroups (gs : List Group) :
    Branch.ofGroups gs = Branch.ofForest (ofGroups gs) ∧
    Arranges gs (ofGroups gs) ∧
    ((walk (ofGroups gs)).flatMap Node.groups).Perm
      ((gs.filter fun g => segments g.functionality ≠ []).map Group.placed) := by
  have shows_ := shows_ofGroups gs
  have ordered := ordered_ofGroups gs
  have arranges : Arranges gs (ofGroups gs) :=
    { roots := ordered.names
      siblings := fun P n trail => (trail.ordered ordered).names
      visited := fun n => mem_walk_iff
      path := fun P n trail =>
        let isAt := (trail.stands shows_).isAt
        ⟨isAt.fullPath, isAt.level⟩
      nodup := walk_eq_preorder (ofGroups gs) ▸ shows_.nodup_preorder
      mem_paths := fun path => mem_paths_ofGroups
      groups := fun n visited => by
        obtain ⟨P, -, here⟩ := mem_walk_stands visited
        exact here.groups_eq
      below := fun n visited => by
        obtain ⟨P, some_, here⟩ := mem_walk_stands visited
        exact here.countNode_eq_countP some_
      total := by rw [← count_eq_sum, shows_.count_eq, length_onward_nil] }
  exact ⟨Branch.ofGroups_eq gs, arranges, arranges.placed⟩

end Forest

end CodeAtlas.Hierarchy
