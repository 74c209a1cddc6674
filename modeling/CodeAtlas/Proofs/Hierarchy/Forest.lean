/-
# Proofs.Hierarchy.Forest -- a forest shows the paths of its groups

A forest below the path `A` *shows* a list of groups (`Shows`) when its trees are the different
segments that follow `A` in the paths of the groups, and each tree carries its path, its level, the
groups that stand exactly there, and below it a forest that shows the same groups.

`Invariant` is what a property of forests needs to be kept by insertions: the induction on the
segments still to be entered is made once (`Invariant.insertAt`), and a property only says what
happens where a path enters one forest (`Invariant.enter`) or none of its trees (`Invariant.away`).
Inserting a group keeps what is shown with that group added (`shows_invariant`), so the forest of a
list of groups shows that list (`shows_ofGroups`).

Read along the walk, this says what every node is (`Stands`, `Shows.stands`), that every initial
part of a path has its node (`Shows.exists_node`), that no path has two (`Shows.nodup_preorder`),
and that the nodes at or below a node are those whose paths extend its own
(`Stands.mem_preorderNode`).  The walk with the explicit stack is the recursive one
(`walk_eq_preorder`), so the paths that it comes by are those of the groups and all above them
(`mem_paths_ofGroups`).
-/
import Mathlib.Data.List.Induction
import CodeAtlas.Hierarchy.Forest
import CodeAtlas.Proofs.Hierarchy.Path

namespace CodeAtlas.Hierarchy.Forest

set_option autoImplicit false

/-! ## The walk -/

theorem preorderNode_eq (n : Node) : preorderNode n = n :: preorder n.children := by
  cases n
  rfl

theorem preorder_append (F G : Forest) : preorder (F ++ G) = preorder F ++ preorder G := by
  induction F with
  | nil => rfl
  | cons n F ih => rw [List.cons_append, preorder, ih, preorder, List.append_assoc]

theorem preorder_eq_flatMap (F : Forest) : preorder F = F.flatMap preorderNode := by
  induction F with
  | nil => rfl
  | cons n F ih => rw [preorder, ih, List.flatMap_cons]

/-- The stack changes nothing about the order of the visits. -/
theorem walk_eq_preorder (F : Forest) : walk F = preorder F := by
  induction F using walk.induct with
  | case1 => rw [walk, preorder]
  | case2 n rest ih =>
      rw [walk, ih, preorder_append, preorder, preorderNode_eq]
      rfl

theorem mem_preorder {F : Forest} {m : Node} :
    m ∈ preorder F ↔ ∃ n ∈ F, m = n ∨ m ∈ preorder n.children := by
  rw [preorder_eq_flatMap, List.mem_flatMap]
  simp only [preorderNode_eq, List.mem_cons]

/-! ## What a forest shows -/

/-- The groups of a list that stand exactly at a path, with their places. -/
def standingAt (gs : List Group) (path : List Text) : List Group :=
  (gs.filter fun g => segments g.functionality = path).map Group.placed

/-- Some group of the list stands at the path or below it. -/
def Reached (gs : List Group) (path : List Text) : Prop :=
  ∃ g ∈ gs, path <+: segments g.functionality

/-- The node is the one of this path. -/
structure IsAt (gs : List Group) (path : List Text) (n : Node) : Prop where
  fullPath : n.fullPath = format path
  level : n.level = path.length
  groups : n.groups = standingAt gs path

/-- **What a forest below the path `A` has to be**: one tree for every segment that follows `A`
in the path of a group, each at its path and with such a forest below it. -/
inductive Shows (gs : List Group) : List Text → Forest → Prop
  | intro {A : List Text} {F : Forest}
      (distinct : (F.map Node.name).Nodup)
      (complete : ∀ s, s ∈ F.map Node.name ↔ Reached gs (A ++ [s]))
      (isAt : ∀ n ∈ F, IsAt gs (A ++ [n.name]) n)
      (below : ∀ n ∈ F, Shows gs (A ++ [n.name]) n.children) : Shows gs A F

theorem Reached.of_initial {gs : List Group} {P Q : List Text} (reached : Reached gs Q)
    (initial : P <+: Q) : Reached gs P := by
  obtain ⟨g, member, onward⟩ := reached
  exact ⟨g, member, initial.trans onward⟩

theorem Reached.isPath {gs : List Group} {P : List Text} (reached : Reached gs P) : IsPath P := by
  obtain ⟨g, -, onward⟩ := reached
  exact (isPath_segments _).of_initial onward

/-- What the segments of a name begin with is a path. -/
theorem isPath_of_split {name : Text} {A rest : List Text} (split : segments name = A ++ rest) :
    IsPath A :=
  (isPath_segments name).of_initial (split ▸ List.prefix_append A rest)

theorem reached_concat {gs : List Group} {g : Group} {P : List Text} :
    Reached (gs ++ [g]) P ↔ Reached gs P ∨ P <+: segments g.functionality := by
  simp only [Reached, List.mem_append, List.mem_singleton, or_and_right, exists_or, exists_eq_left]

theorem standingAt_eq_nil {gs : List Group} {P : List Text} (unreached : ¬ Reached gs P) :
    standingAt gs P = [] := by
  rw [standingAt, List.map_eq_nil_iff, List.filter_eq_nil_iff]
  intro g member here
  rw [decide_eq_true_eq] at here
  exact unreached ⟨g, member, here ▸ List.prefix_rfl⟩

theorem standingAt_concat (gs : List Group) (g : Group) (P : List Text) :
    standingAt (gs ++ [g]) P =
      standingAt gs P ++ if segments g.functionality = P then [g.placed] else [] := by
  rw [standingAt, List.filter_append, List.map_append, standingAt]
  split
  · rename_i here
    rw [List.filter_cons_of_pos (by simpa using here)]
    rfl
  · rename_i elsewhere
    rw [List.filter_cons_of_neg (by simpa using elsewhere)]
    rfl

/-- Below a path that nothing reaches there is the empty forest. -/
theorem shows_nil {gs : List Group} {A : List Text} (unreached : ∀ s, ¬ Reached gs (A ++ [s])) :
    Shows gs A [] :=
  .intro List.nodup_nil (fun s => by simp [unreached s]) (by simp) (by simp)

/-! ## Inserting one group -/

theorem not_concat_prefix_self (P : List Text) (s : Text) : ¬ P ++ [s] <+: P := by
  intro longer
  have short := longer.length_le
  rw [List.length_append, List.length_singleton] at short
  omega

/-- A path enters one tree only. -/
theorem enters_iff {A rest : List Text} {s t : Text} : A ++ [t] <+: A ++ s :: rest ↔ t = s := by
  rw [List.prefix_append_right_inj, List.cons_prefix_cons, and_iff_left List.nil_prefix]

/-- A group does not change what stands away from its path. -/
theorem IsAt.concat_of_ne {gs : List Group} {g : Group} {P : List Text} {n : Node}
    (isAt : IsAt gs P n) (elsewhere : segments g.functionality ≠ P) : IsAt (gs ++ [g]) P n :=
  { isAt with
    groups := by rw [standingAt_concat, if_neg elsewhere, List.append_nil, isAt.groups] }

/-- A group does not change a forest whose trees its path does not enter. -/
theorem Shows.concat_of_not_initial {gs : List Group} {g : Group} {A : List Text} {F : Forest}
    (shows_ : Shows gs A F) (away : ∀ s, ¬ A ++ [s] <+: segments g.functionality) :
    Shows (gs ++ [g]) A F := by
  induction shows_ with
  | intro distinct complete isAt below ih =>
      refine .intro distinct (fun s => ?_) (fun n member => ?_) (fun n member => ?_)
      · rw [complete s, reached_concat, or_iff_left (away s)]
      · exact (isAt n member).concat_of_ne fun here => away n.name (here ▸ List.prefix_rfl)
      · refine ih n member fun s deeper => away n.name ?_
        exact (List.prefix_append _ _).trans deeper

/-- What happens to the tree that a path enters: the group is attached, or goes further down. -/
def grow (g : Group) (path : Text) (depth : Nat) (rest : List Text) (n : Node) : Node :=
  if rest.isEmpty then { n with groups := n.groups ++ [g] }
  else { n with children := insertAt g path depth rest n.children }

theorem insertAt_cons (g : Group) {A : List Text} (path : IsPath A) (s : Text) (rest : List Text)
    (F : Forest) :
    insertAt g (format A) A.length (s :: rest) F =
      alter { name := s, fullPath := format (A ++ [s]), level := (A ++ [s]).length }
        (grow g (format (A ++ [s])) (A ++ [s]).length rest) F := by
  rw [insertAt, format_concat path, List.length_append, List.length_singleton]
  rfl

theorem name_grow (g : Group) (path : Text) (depth : Nat) (rest : List Text) (n : Node) :
    (grow g path depth rest n).name = n.name := by
  rw [grow]
  split <;> rfl

theorem children_grow (g : Group) (path : Text) (depth : Nat) (rest : List Text) (n : Node) :
    (grow g path depth rest n).children = insertAt g path depth rest n.children := by
  cases rest <;> rfl

section Alter

variable (fresh : Node) (f : Node → Node)

theorem map_name_alter (keeps : ∀ n, (f n).name = n.name) (F : Forest) :
    (alter fresh f F).map Node.name =
      if fresh.name ∈ F.map Node.name then F.map Node.name
      else F.map Node.name ++ [fresh.name] := by
  induction F with
  | nil => simp [alter, keeps]
  | cons n F ih =>
      by_cases here : n.name = fresh.name
      · simp [alter, here, keeps]
      · have step : alter fresh f (n :: F) = n :: alter fresh f F := by simp [alter, here]
        rw [step, List.map_cons, ih, List.map_cons]
        by_cases known : fresh.name ∈ F.map Node.name
        · rw [if_pos known, if_pos (List.mem_cons_of_mem _ known)]
        · rw [if_neg known, if_neg (by simp [Ne.symm here, known])]
          rfl

/-- A tree of the changed forest is an old one with another name, or the changed one, which was
there or has just been made. -/
theorem mem_alter {F : Forest} (distinct : (F.map Node.name).Nodup) {m : Node}
    (member : m ∈ alter fresh f F) :
    m ∈ F ∧ m.name ≠ fresh.name ∨
      ∃ n, m = f n ∧ (n ∈ F ∧ n.name = fresh.name ∨ n = fresh ∧ fresh.name ∉ F.map Node.name) := by
  induction F with
  | nil =>
      rw [alter, List.mem_singleton] at member
      exact .inr ⟨fresh, member, .inr ⟨rfl, by simp⟩⟩
  | cons n F ih =>
      rw [List.map_cons, List.nodup_cons] at distinct
      by_cases here : n.name = fresh.name
      · have step : alter fresh f (n :: F) = f n :: F := by simp [alter, here]
        rw [step, List.mem_cons] at member
        rcases member with rfl | later
        · exact .inr ⟨n, rfl, .inl ⟨List.mem_cons_self, here⟩⟩
        · refine .inl ⟨List.mem_cons_of_mem _ later, fun same => distinct.1 ?_⟩
          exact List.mem_map.mpr ⟨m, later, same.trans here.symm⟩
      · have step : alter fresh f (n :: F) = n :: alter fresh f F := by simp [alter, here]
        rw [step, List.mem_cons] at member
        rcases member with rfl | later
        · exact .inl ⟨List.mem_cons_self, here⟩
        · rcases ih distinct.2 later with ⟨old, other⟩ | ⟨k, rfl, ⟨old, same⟩ | ⟨rfl, absent⟩⟩
          · exact .inl ⟨List.mem_cons_of_mem _ old, other⟩
          · exact .inr ⟨k, rfl, .inl ⟨List.mem_cons_of_mem _ old, same⟩⟩
          · exact .inr ⟨k, rfl, .inr ⟨rfl, by simp [Ne.symm here, absent]⟩⟩

end Alter

/-- The tree that is made where a path enters none. -/
def sprout (A : List Text) (s : Text) : Node :=
  { name := s, fullPath := format (A ++ [s]), level := (A ++ [s]).length }

section Insertion

variable (g : Group) {A : List Text} (path : IsPath A) {s : Text} {rest : List Text} {F : Forest}

include path

theorem names_insertAt :
    (insertAt g (format A) A.length (s :: rest) F).map Node.name =
      if s ∈ F.map Node.name then F.map Node.name else F.map Node.name ++ [s] := by
  rw [insertAt_cons g path]
  exact map_name_alter _ _ (name_grow _ _ _ _) F

/-- The trees after an insertion: those that the path does not enter, and the one that it enters. -/
theorem mem_insertAt (distinct : (F.map Node.name).Nodup) {m : Node}
    (member : m ∈ insertAt g (format A) A.length (s :: rest) F) :
    m ∈ F ∧ m.name ≠ s ∨ ∃ n, m = grow g (format (A ++ [s])) (A ++ [s]).length rest n ∧
      (n ∈ F ∧ n.name = s ∨ n = sprout A s ∧ s ∉ F.map Node.name) := by
  rw [insertAt_cons g path] at member
  exact mem_alter _ _ distinct member

end Insertion

/-! ## What insertions keep -/

/-- **A property of a list of groups, a path, and the forest below it that insertions keep.**
Siblings have different names.  The property passes to the forests below, and to the empty forest
where there is no tree.  A group whose path enters no tree leaves it as it is; and where a path
enters the forest, it holds of the forest again if it holds below each of its trees. -/
structure Invariant (M : List Group → List Text → Forest → Prop) : Prop where
  start : M [] [] []
  distinct {gs : List Group} {A : List Text} {F : Forest} (held : M gs A F) :
    (F.map Node.name).Nodup
  below {gs : List Group} {A : List Text} {F : Forest} {n : Node} (held : M gs A F)
    (tree : n ∈ F) : M gs (A ++ [n.name]) n.children
  fresh {gs : List Group} {A : List Text} {F : Forest} {s : Text} (held : M gs A F)
    (absent : s ∉ F.map Node.name) : M gs (A ++ [s]) []
  away {gs : List Group} {A : List Text} {F : Forest} {g : Group} (held : M gs A F)
    (passes : ∀ s, ¬ A ++ [s] <+: segments g.functionality) : M (gs ++ [g]) A F
  enter {gs : List Group} {A rest : List Text} {F : Forest} {g : Group} {s : Text}
    (held : M gs A F) (split : segments g.functionality = A ++ s :: rest)
    (after : ∀ m ∈ insertAt g.placed (format A) A.length (s :: rest) F,
      M (gs ++ [g]) (A ++ [m.name]) m.children) :
    M (gs ++ [g]) A (insertAt g.placed (format A) A.length (s :: rest) F)

namespace Invariant

variable {M : List Group → List Text → Forest → Prop} (invariant : Invariant M) {gs : List Group}
  {g : Group}

include invariant

theorem insertAt {rest : List Text} : ∀ {A : List Text} {F : Forest}, M gs A F →
    segments g.functionality = A ++ rest →
      M (gs ++ [g]) A (insertAt g.placed (format A) A.length rest F) := by
  induction rest with
  | nil =>
      intro A F held split
      rw [List.append_nil] at split
      exact invariant.away held fun s further => not_concat_prefix_self A s (split ▸ further)
  | cons s rest ih =>
      intro A F held split
      have split' : segments g.functionality = (A ++ [s]) ++ rest := by simp [split]
      refine invariant.enter held split fun m member => ?_
      rcases mem_insertAt g.placed (isPath_of_split split) (invariant.distinct held) member with
        ⟨old, other⟩ | ⟨n, rfl, ⟨old, rfl⟩ | ⟨rfl, absent⟩⟩
      · refine invariant.away (invariant.below held old) fun t onto => other ?_
        exact enters_iff.mp ((List.prefix_append _ _).trans (split ▸ onto))
      · rw [name_grow, children_grow]
        exact ih (invariant.below held old) split'
      · rw [name_grow, children_grow]
        exact ih (invariant.fresh held absent) split'

/-- **What insertions keep holds of every forest of a list of groups.** -/
theorem ofGroups (gs : List Group) : M gs [] (ofGroups gs) := by
  induction gs using List.reverseRecOn with
  | nil => exact invariant.start
  | append_singleton gs g ih =>
      rw [Forest.ofGroups, List.foldl_append]
      exact invariant.insertAt ih rfl

end Invariant

/-! ## Inserting keeps what is shown -/

section Entered

variable {gs : List Group} {g : Group} {A rest : List Text} {F : Forest} {s : Text}

/-- The node that a path enters carries the group if the path ends there. -/
theorem IsAt.grow {P : List Text} {n : Node} (split : segments g.functionality = P ++ rest)
    (isAt : IsAt gs P n) : IsAt (gs ++ [g]) P (grow g.placed (format P) P.length rest n) := by
  cases rest with
  | nil =>
      rw [List.append_nil] at split
      refine ⟨isAt.fullPath, isAt.level, ?_⟩
      rw [standingAt_concat, if_pos split, ← isAt.groups]
      rfl
  | cons s rest =>
      have same := isAt.concat_of_ne (g := g) (by simp [split])
      exact ⟨same.fullPath, same.level, same.groups⟩

/-- After an insertion every tree is at its path. -/
theorem Shows.isAt_insertAt (shows_ : Shows gs A F)
    (split : segments g.functionality = A ++ s :: rest) {m : Node}
    (member : m ∈ insertAt g.placed (format A) A.length (s :: rest) F) :
    IsAt (gs ++ [g]) (A ++ [m.name]) m := by
  obtain ⟨distinct, complete, isAt, -⟩ := shows_
  have split' : segments g.functionality = (A ++ [s]) ++ rest := by simp [split]
  rcases mem_insertAt g.placed (isPath_of_split split) distinct member with
    ⟨old, other⟩ | ⟨n, rfl, ⟨old, rfl⟩ | ⟨rfl, absent⟩⟩
  · refine (isAt m old).concat_of_ne fun here => other ?_
    have onto : A ++ [m.name] <+: segments g.functionality := here ▸ List.prefix_rfl
    exact enters_iff.mp (split ▸ onto)
  · rw [name_grow]
    exact (isAt n old).grow split'
  · rw [complete] at absent
    rw [name_grow]
    have sprouted : IsAt gs (A ++ [s]) (sprout A s) := ⟨rfl, rfl, (standingAt_eq_nil absent).symm⟩
    exact sprouted.grow split'

/-- **After an insertion the forest shows the group as well**, if the forests below its trees do. -/
theorem Shows.enter (shows_ : Shows gs A F) (split : segments g.functionality = A ++ s :: rest)
    (after : ∀ m ∈ insertAt g.placed (format A) A.length (s :: rest) F,
      Shows (gs ++ [g]) (A ++ [m.name]) m.children) :
    Shows (gs ++ [g]) A (insertAt g.placed (format A) A.length (s :: rest) F) := by
  have names : (insertAt g.placed (format A) A.length (s :: rest) F).map Node.name =
      if s ∈ F.map Node.name then F.map Node.name else F.map Node.name ++ [s] :=
    names_insertAt g.placed (isPath_of_split split)
  have isAt' : ∀ m ∈ insertAt g.placed (format A) A.length (s :: rest) F,
      IsAt (gs ++ [g]) (A ++ [m.name]) m := fun m member => shows_.isAt_insertAt split member
  obtain ⟨distinct, complete, -, -⟩ := shows_
  by_cases known : s ∈ F.map Node.name
  · rw [if_pos known] at names
    refine .intro (names ▸ distinct) (fun t => ?_) isAt' after
    rw [names, reached_concat, split, enters_iff, ← complete t]
    exact ⟨.inl, fun either => either.elim id fun same => same ▸ known⟩
  · rw [if_neg known] at names
    refine .intro ?_ (fun t => ?_) isAt' after
    · rw [names, ← List.concat_eq_append]
      exact distinct.concat known
    · rw [names, reached_concat, split, enters_iff, ← complete t, List.mem_append,
        List.mem_singleton]

end Entered

/-- **Inserting a group adds it to what the forest shows.** -/
theorem shows_invariant : Invariant Shows where
  start := shows_nil fun s reached => by simp [Reached] at reached
  distinct := fun ⟨distinct, _, _, _⟩ => distinct
  below := fun ⟨_, _, _, below⟩ tree => below _ tree
  fresh := fun ⟨_, complete, _, _⟩ absent => shows_nil fun _ reached =>
    absent ((complete _).mpr (reached.of_initial (List.prefix_append _ _)))
  away := Shows.concat_of_not_initial
  enter := Shows.enter

/-- **The forest of a list of groups shows that list.** -/
theorem shows_ofGroups (gs : List Group) : Shows gs [] (ofGroups gs) :=
  shows_invariant.ofGroups gs

/-! ## Along the walk -/

/-- A node of a forest that shows `gs`: it stands at the path `P`, which some group reaches, and
the forest below it shows the same groups. -/
structure Stands (gs : List Group) (P : List Text) (n : Node) : Prop where
  isAt : IsAt gs P n
  reached : Reached gs P
  below : Shows gs P n.children

namespace Shows

variable {gs : List Group} {A : List Text} {F : Forest}

theorem stands_root (shows_ : Shows gs A F) {n : Node} (member : n ∈ F) :
    Stands gs (A ++ [n.name]) n := by
  cases shows_ with
  | intro distinct complete isAt below =>
      exact ⟨isAt n member, (complete _).mp (List.mem_map.mpr ⟨n, member, rfl⟩), below n member⟩

/-- Every node stands at a path that properly extends that of the forest. -/
theorem stands (shows_ : Shows gs A F) {m : Node} (member : m ∈ preorder F) :
    ∃ s P, Stands gs (A ++ s :: P) m := by
  induction shows_ with
  | @intro A F distinct complete isAt below ih =>
      obtain ⟨n, tree, rfl | deeper⟩ := mem_preorder.mp member
      · exact ⟨m.name, [], (Shows.intro distinct complete isAt below).stands_root tree⟩
      · obtain ⟨s, P, stands⟩ := ih n tree deeper
        exact ⟨n.name, s :: P, by simpa using stands⟩

/-- Every path that a group reaches has a node. -/
theorem exists_node (shows_ : Shows gs A F) {s : Text} {P : List Text}
    (reached : Reached gs (A ++ s :: P)) : ∃ m ∈ preorder F, Stands gs (A ++ s :: P) m := by
  induction shows_ generalizing s P with
  | @intro A F distinct complete isAt below ih =>
      have whole := Shows.intro distinct complete isAt below
      have first : Reached gs (A ++ [s]) := reached.of_initial ⟨P, by simp⟩
      obtain ⟨n, tree, rfl⟩ := List.mem_map.mp ((complete s).mpr first)
      cases P with
      | nil => exact ⟨n, mem_preorder.mpr ⟨n, tree, .inl rfl⟩, whole.stands_root tree⟩
      | cons s' P =>
          obtain ⟨m, deeper, stands⟩ := ih n tree (s := s') (P := P) (by simpa using reached)
          exact ⟨m, mem_preorder.mpr ⟨n, tree, .inr deeper⟩, by simpa using stands⟩

end Shows

theorem Stands.isPath {gs : List Group} {P : List Text} {n : Node} (stands : Stands gs P n) :
    IsPath P := stands.reached.isPath

theorem Stands.segments_fullPath {gs : List Group} {P : List Text} {n : Node}
    (stands : Stands gs P n) : segments n.fullPath = P := by
  rw [stands.isAt.fullPath, segments_format stands.isPath]

/-- The nodes at or below a node are those whose paths extend its own. -/
theorem Stands.mem_preorderNode {gs : List Group} {P : List Text} {n : Node}
    (stands : Stands gs P n) {m : Node} (member : m ∈ preorderNode n) :
    ∃ Q, Stands gs (P ++ Q) m := by
  rw [preorderNode_eq, List.mem_cons] at member
  rcases member with rfl | deeper
  · exact ⟨[], by simpa using stands⟩
  · obtain ⟨s, Q, stands'⟩ := stands.below.stands deeper
    exact ⟨s :: Q, stands'⟩

/-- A path that extends the path of a node has its node at or below it. -/
theorem Stands.exists_mem_preorderNode {gs : List Group} {P Q : List Text} {n : Node}
    (stands : Stands gs P n) (reached : Reached gs (P ++ Q)) :
    ∃ m ∈ preorderNode n, Stands gs (P ++ Q) m := by
  rw [preorderNode_eq]
  cases Q with
  | nil => exact ⟨n, List.mem_cons_self, by simpa using stands⟩
  | cons s Q =>
      obtain ⟨m, deeper, stands'⟩ := stands.below.exists_node reached
      exact ⟨m, List.mem_cons_of_mem _ deeper, stands'⟩

/-- No path has two nodes. -/
theorem Shows.nodup_preorder {gs : List Group} {A : List Text} {F : Forest}
    (shows_ : Shows gs A F) : ((preorder F).map Node.fullPath).Nodup := by
  induction shows_ with
  | @intro A F distinct complete isAt below ih =>
      have whole := Shows.intro distinct complete isAt below
      rw [preorder_eq_flatMap, List.map_flatMap, List.nodup_flatMap]
      refine ⟨fun n tree => ?_, (List.pairwise_map.mp distinct).imp_of_mem ?_⟩
      · rw [preorderNode_eq, List.map_cons, List.nodup_cons]
        refine ⟨fun again => ?_, ih n tree⟩
        obtain ⟨m, deeper, same⟩ := List.mem_map.mp again
        obtain ⟨s, P, stands⟩ := (below n tree).stands deeper
        have paths := stands.segments_fullPath
        rw [same, (whole.stands_root tree).segments_fullPath] at paths
        simp at paths
      · intro a b treeA treeB different path memberA memberB
        obtain ⟨m, atA, rfl⟩ := List.mem_map.mp memberA
        obtain ⟨m', atB, same⟩ := List.mem_map.mp memberB
        obtain ⟨P, stands⟩ := (whole.stands_root treeA).mem_preorderNode atA
        obtain ⟨Q, stands'⟩ := (whole.stands_root treeB).mem_preorderNode atB
        have paths := stands.segments_fullPath
        rw [← same, stands'.segments_fullPath] at paths
        simp only [List.append_assoc, List.append_cancel_left_eq, List.singleton_append,
          List.cons.injEq] at paths
        exact different paths.1.symm

/-! ## The nodes of a list of groups -/

section OfGroups

variable {gs : List Group}

theorem mem_walk_stands {n : Node} (member : n ∈ walk (ofGroups gs)) :
    ∃ P, P ≠ [] ∧ Stands gs P n := by
  rw [walk_eq_preorder] at member
  obtain ⟨s, P, stands⟩ := (shows_ofGroups gs).stands member
  exact ⟨s :: P, by simp, stands⟩

/-- **The paths of the nodes are those of the groups and all above them.** -/
theorem mem_paths_ofGroups {path : Text} :
    path ∈ (walk (ofGroups gs)).map Node.fullPath ↔
      ∃ g ∈ gs, path ∈ ancestors g.functionality := by
  rw [List.mem_map]
  constructor
  · rintro ⟨n, member, rfl⟩
    obtain ⟨P, some_, stands⟩ := mem_walk_stands member
    obtain ⟨g, known, initial⟩ := stands.reached
    refine ⟨g, known, ?_⟩
    rwa [stands.isAt.fullPath, format_mem_ancestors stands.isPath some_]
  · rintro ⟨g, known, above⟩
    obtain ⟨P, some_, initial, rfl⟩ := mem_ancestors.mp above
    obtain ⟨s, P, rfl⟩ := List.exists_cons_of_ne_nil some_
    have reached : Reached gs ([] ++ s :: P) := ⟨g, known, initial⟩
    obtain ⟨m, member, stands⟩ := (shows_ofGroups gs).exists_node reached
    exact ⟨m, walk_eq_preorder (ofGroups gs) ▸ member, stands.isAt.fullPath⟩

end OfGroups

end CodeAtlas.Hierarchy.Forest
