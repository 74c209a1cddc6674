/-
# Proofs.Hierarchy.Siblings -- the order of siblings and the number of groups below

The groups whose paths go on from the path `A` name, one after the other, the segment they go on
with (`onward`).  What `Shows` says of a forest as a set is said here of the list: its trees come in
the order in which these segments come first (`Ordered`), which insertions keep
(`ordered_invariant`).

The same list counts the groups below a path.  At or below a node stand the groups whose paths
extend its own, and in a forest the groups whose paths go on from where the forest begins
(`Shows.count_eq`): one group is counted in one tree only, since trees have different names.
-/
import Mathlib.Algebra.BigOperators.Group.List.Lemmas
import Mathlib.Algebra.Ring.Nat
import CodeAtlas.Proofs.Hierarchy.Forest
import CodeAtlas.Proofs.Text.Order

namespace CodeAtlas.Hierarchy.Forest

set_option autoImplicit false

/-! ## Going on from a path -/

/-- The segment with which the path `P` goes on from `A`, if it does. -/
def next? (A P : List Text) : Option Text :=
  if A <+: P then P[A.length]? else none

/-- The segments with which the paths of the groups go on from `A`, in the order of the groups. -/
def onward (gs : List Group) (A : List Text) : List Text :=
  gs.filterMap fun g => next? A (segments g.functionality)

theorem next?_append (A rest : List Text) : next? A (A ++ rest) = rest.head? := by
  rw [next?, if_pos (List.prefix_append A rest), List.getElem?_append_right le_rfl, Nat.sub_self,
    List.head?_eq_getElem?]

theorem next?_eq_some_iff {A P : List Text} {s : Text} : next? A P = some s ↔ A ++ [s] <+: P := by
  by_cases initial : A <+: P
  · obtain ⟨rest, rfl⟩ := initial
    rw [next?_append, List.prefix_append_right_inj]
    cases rest with
    | nil => simp
    | cons t rest => simp [eq_comm]
  · rw [next?, if_neg initial]
    refine iff_of_false (by simp) fun longer => initial ?_
    exact (List.prefix_append A [s]).trans longer

theorem next?_eq_none {A P : List Text} (away : ∀ s, ¬ A ++ [s] <+: P) : next? A P = none :=
  Option.eq_none_iff_forall_ne_some.mpr fun s enters => away s (next?_eq_some_iff.mp enters)

theorem mem_onward {gs : List Group} {A : List Text} {s : Text} :
    s ∈ onward gs A ↔ Reached gs (A ++ [s]) := by
  simp only [onward, List.mem_filterMap, next?_eq_some_iff, Reached]

theorem onward_concat (gs : List Group) (g : Group) (A : List Text) :
    onward (gs ++ [g]) A = onward gs A ++ (next? A (segments g.functionality)).toList := by
  rw [onward, List.filterMap_append, onward]
  cases next : next? A (segments g.functionality) <;> simp [next]

/-- How many groups go on with a segment. -/
theorem count_onward (gs : List Group) (A : List Text) (s : Text) :
    (onward gs A).count s = gs.countP fun g => A ++ [s] <+: segments g.functionality := by
  rw [onward, List.count_filterMap]
  refine List.countP_congr fun g _ => ?_
  rw [beq_iff_eq, decide_eq_true_eq, next?_eq_some_iff]

/-- The groups at a path and those that go on from it are the groups at or below it. -/
theorem length_standingAt_add_onward (gs : List Group) (P : List Text) :
    (standingAt gs P).length + (onward gs P).length =
      gs.countP fun g => P <+: segments g.functionality := by
  induction gs using List.reverseRecOn with
  | nil => rfl
  | append_singleton gs g ih =>
      rw [standingAt_concat, onward_concat, List.countP_append, ← ih, List.length_append,
        List.length_append]
      by_cases initial : P <+: segments g.functionality
      · obtain ⟨rest, whole⟩ := initial
        cases rest with
        | nil =>
            rw [List.append_nil] at whole
            have ends : next? P P = none := by simpa using next?_append P []
            simp [← whole, ends]
            omega
        | cons s rest =>
            simp [← whole, next?_append]
            omega
      · have here : segments g.functionality ≠ P := fun same => initial (same ▸ List.prefix_rfl)
        simp [next?, initial, here]

/-! ## The order of siblings -/

/-- **The trees of a forest, and those below each node of it, come in the order in which the groups
first enter them.** -/
inductive Ordered (gs : List Group) : List Text → Forest → Prop
  | intro {A : List Text} {F : Forest}
      (names : F.map Node.name = Text.distinct (onward gs A))
      (below : ∀ n ∈ F, Ordered gs (A ++ [n.name]) n.children) : Ordered gs A F

theorem Ordered.names {gs : List Group} {A : List Text} {F : Forest} (ordered : Ordered gs A F) :
    F.map Node.name = Text.distinct (onward gs A) := by
  cases ordered with
  | intro names below => exact names

theorem Ordered.children {gs : List Group} {A : List Text} {F : Forest} (ordered : Ordered gs A F)
    {n : Node} (member : n ∈ F) : Ordered gs (A ++ [n.name]) n.children := by
  cases ordered with
  | intro names below => exact below n member

theorem ordered_nil {gs : List Group} {A : List Text} (none_ : onward gs A = []) :
    Ordered gs A [] :=
  .intro (by rw [none_]; rfl) (by simp)

/-- A group does not change the order of trees that its path does not enter. -/
theorem Ordered.concat_of_not_initial {gs : List Group} {g : Group} {A : List Text} {F : Forest}
    (ordered : Ordered gs A F) (away : ∀ s, ¬ A ++ [s] <+: segments g.functionality) :
    Ordered (gs ++ [g]) A F := by
  induction ordered with
  | intro names below ih =>
      refine .intro ?_ fun n member => ih n member fun s deeper => away n.name ?_
      · rw [names, onward_concat, next?_eq_none away, Option.toList_none, List.append_nil]
      · exact (List.prefix_append _ _).trans deeper

/-- Where there is no tree the empty forest is in order. -/
theorem Ordered.fresh {gs : List Group} {A : List Text} {F : Forest} {s : Text}
    (ordered : Ordered gs A F) (absent : s ∉ F.map Node.name) : Ordered gs (A ++ [s]) [] := by
  refine ordered_nil (List.eq_nil_iff_forall_not_mem.mpr fun t enters => absent ?_)
  rw [ordered.names, Text.mem_distinct, mem_onward]
  exact (mem_onward.mp enters).of_initial (List.prefix_append _ _)

/-- A tree that is made comes last, and its group is the first that enters it. -/
theorem Ordered.enter {gs : List Group} {g : Group} {A rest : List Text} {F : Forest} {s : Text}
    (ordered : Ordered gs A F) (split : segments g.functionality = A ++ s :: rest)
    (after : ∀ m ∈ insertAt g.placed (format A) A.length (s :: rest) F,
      Ordered (gs ++ [g]) (A ++ [m.name]) m.children) :
    Ordered (gs ++ [g]) A (insertAt g.placed (format A) A.length (s :: rest) F) := by
  refine .intro ?_ after
  rw [names_insertAt g.placed (isPath_of_split split), onward_concat, split, next?_append,
    List.head?_cons, Option.toList_some, Text.distinct_concat, ordered.names]
  simp only [List.contains_iff_mem]

/-- **Inserting a group keeps the order.** -/
theorem ordered_invariant : Invariant Ordered where
  start := ordered_nil rfl
  distinct := fun ordered => ordered.names ▸ Text.nodup_distinct _
  below := fun ordered => ordered.children
  fresh := Ordered.fresh
  away := Ordered.concat_of_not_initial
  enter := Ordered.enter

theorem ordered_ofGroups (gs : List Group) : Ordered gs [] (ofGroups gs) :=
  ordered_invariant.ofGroups gs

/-! ## Counting -/

theorem countNode_eq (n : Node) : countNode n = n.groups.length + count n.children := by
  cases n
  rfl

theorem count_eq_sum (F : Forest) : count F = (F.map countNode).sum := by
  induction F with
  | nil => rfl
  | cons n F ih => rw [count, ih, List.map_cons, List.sum_cons]

/-- Counting the members of a list under each of its values counts the list. -/
theorem sum_map_count_of_mem_iff {names l : List Text} (nodup : names.Nodup)
    (same : ∀ s, s ∈ names ↔ s ∈ l) : (names.map fun s => l.count s).sum = l.length := by
  have perm : names.Perm l.dedup :=
    (List.perm_ext_iff_of_nodup nodup l.nodup_dedup).mpr fun s => by rw [same, List.mem_dedup]
  -- `count` compares texts as lists here, and by their decided equality there
  rw [(perm.map _).sum_eq, lawful_beq_subsingleton List.instBEq instBEqOfDecidableEq]
  exact List.sum_map_count_dedup_eq_length l

theorem countNode_of_isAt {gs : List Group} {P : List Text} {n : Node} (isAt : IsAt gs P n)
    (below : count n.children = (onward gs P).length) :
    countNode n = gs.countP fun g => P <+: segments g.functionality := by
  rw [countNode_eq, below, isAt.groups, length_standingAt_add_onward]

/-- **In a forest are counted the groups whose paths go on from where it begins**, each once. -/
theorem Shows.count_eq {gs : List Group} {A : List Text} {F : Forest} (shows_ : Shows gs A F) :
    count F = (onward gs A).length := by
  induction shows_ with
  | @intro A F distinct complete isAt below ih =>
      have trees : F.map countNode = (F.map Node.name).map fun s => (onward gs A).count s := by
        rw [List.map_map]
        refine List.map_congr_left fun n member => ?_
        rw [countNode_of_isAt (isAt n member) (ih n member), Function.comp_apply, count_onward]
      rw [count_eq_sum, trees, sum_map_count_of_mem_iff distinct]
      intro s
      rw [complete, mem_onward]

/-- **At or below a node are counted the groups whose paths extend its own.** -/
theorem Stands.countNode_eq {gs : List Group} {P : List Text} {n : Node} (stands : Stands gs P n) :
    countNode n = gs.countP fun g => P <+: segments g.functionality :=
  countNode_of_isAt stands.isAt stands.below.count_eq

end CodeAtlas.Hierarchy.Forest
