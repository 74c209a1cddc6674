/-
# Proofs.Hierarchy.Walk -- the walk of a forest, round by round

A loop that keeps a stack takes the last pending member in each round, visits it, and puts what is
directly below it on top of the stack, the first at the end (`Tour.round`).  It looks at one member
at a time and knows nothing of trees.  Of a forest it reads the roots and, node by node, the children,
in the order in which they were added.

If there is a recursive walk at all (`Tour.Descends`), every round visits the first of what is ahead
and leaves the others ahead, in their order (`Tour.exists_round`).  What is ahead is therefore one
shorter after each round, although the stack may have grown, and the loop ends when it has visited
what the recursive walk does (`Tour.yields`).

Two trees of a forest may be equal, so a node does not say where it stands.  A *spot* is a node with
its position, the numbers of the trees that lead to it.  The recursive walk of the spots (`located`)
has every position of the forest (`mem_located_iff`) in ascending order (`pairwise_located`), and
that is the order `InOrder` asks for: a node before all below it, and the whole tree of a sibling
before the next.
-/
import CodeAtlas.Proofs.Hierarchy.Forest
import Mathlib.Data.List.Lex

namespace CodeAtlas.Hierarchy

set_option autoImplicit false

/-! ## The loop -/

/-- A loop between two rounds: what is pending, the next at the end, and what has been visited. -/
structure Tour (α : Type) where
  pending : List α
  visited : List α := []

namespace Tour

variable {α : Type} (below : α → List α)

/-- The roots are pending, the first of them at the end. -/
def start (roots : List α) : Tour α := { pending := roots.reverse }

/-- The last pending member is visited, and what is directly below it is pending instead, the first
of that at the end.  There is no round when nothing is pending. -/
def round (t : Tour α) : Option (Tour α) :=
  t.pending.getLast?.map fun a =>
    { pending := t.pending.dropLast ++ (below a).reverse, visited := t.visited ++ [a] }

/-- The loop a number of rounds later. -/
def after : Nat → Tour α → Option (Tour α)
  | 0, t => some t
  | k + 1, t => (t.round below).bind (after k)

/-- **The loop over the roots visits these members**, one in each round, and then it ends. -/
structure Yields (roots members : List α) : Prop where
  /-- After any number of rounds the first so many have been visited. -/
  visits : ∀ k ≤ members.length,
    ∃ t, (start roots).after below k = some t ∧ t.visited = members.take k
  /-- After as many rounds as there are members nothing is pending. -/
  ends : (start roots).after below members.length = some { pending := [], visited := members }

/-- The list of a member is its recursive walk: itself, then the walks of what is directly below. -/
def Descends (f : α → List α) : Prop := ∀ a, f a = a :: (below a).flatMap f

/-- What the loop has still to visit, when these are the walks of the members. -/
def ahead (f : α → List α) (t : Tour α) : List α := t.pending.reverse.flatMap f

variable {below} {f : α → List α}

/-- **What one round can do.** -/
theorem round_cases (below : α → List α) (t : Tour α) :
    t.pending = [] ∧ t.round below = none ∨
      ∃ rest a, t.pending = rest ++ [a] ∧ t.round below =
        some { pending := rest ++ (below a).reverse, visited := t.visited ++ [a] } := by
  obtain ⟨pending, visited⟩ := t
  rcases List.eq_nil_or_concat' pending with rfl | ⟨rest, a, rfl⟩
  · exact .inl ⟨rfl, rfl⟩
  · refine .inr ⟨rest, a, rfl, ?_⟩
    simp [round]

theorem ahead_start (roots : List α) : (start roots).ahead f = roots.flatMap f := by
  simp [ahead, start]

/-- Something is ahead as long as something is pending. -/
theorem ahead_eq_nil_iff (descends : Descends below f) (t : Tour α) :
    t.ahead f = [] ↔ t.pending = [] := by
  constructor
  · intro none_
    rw [ahead, List.flatMap_eq_nil_iff] at none_
    refine List.eq_nil_iff_forall_not_mem.mpr fun a member => ?_
    have empty := none_ a (List.mem_reverse.mpr member)
    rw [descends a] at empty
    contradiction
  · intro none_
    rw [ahead, none_]
    rfl

/-- **One round visits the first of what is ahead** and leaves the rest ahead: the walks of what is
below a member come in front of those of what was pending under it. -/
theorem exists_round (descends : Descends below f) {t : Tour α} {a : α} {l : List α}
    (onward : t.ahead f = a :: l) :
    ∃ t', t.round below = some t' ∧ t'.visited = t.visited ++ [a] ∧ t'.ahead f = l := by
  rcases round_cases below t with ⟨none_, -⟩ | ⟨rest, b, top, next⟩
  · rw [(ahead_eq_nil_iff descends t).mpr none_] at onward
    contradiction
  · have split : t.ahead f = b :: ((below b).flatMap f ++ rest.reverse.flatMap f) := by
      rw [ahead, top, List.reverse_append, List.reverse_singleton, List.singleton_append,
        List.flatMap_cons, descends b, List.cons_append]
    rw [split, List.cons.injEq] at onward
    obtain ⟨rfl, rfl⟩ := onward
    -- What was put on the stack backwards is taken from its top, so it comes in its own order.
    refine ⟨_, next, rfl, ?_⟩
    simp [ahead]

/-- With 2 and 3 below 1, the round of 1 leaves 2 on top of 3, and both on top of 4. -/
example : (start [1, 4]).round (fun n => if n = 1 then [2, 3] else []) =
    some { pending := [4, 3, 2], visited := [1] } := rfl

/-- **A run of any length**: the first of what was ahead has been visited, the rest is ahead. -/
theorem exists_after (descends : Descends below f) {k : Nat} :
    ∀ {t : Tour α}, k ≤ (t.ahead f).length →
      ∃ t', t.after below k = some t' ∧ t'.visited = t.visited ++ (t.ahead f).take k ∧
        t'.ahead f = (t.ahead f).drop k := by
  induction k with
  | zero =>
      intro t _
      exact ⟨t, rfl, by simp, by simp⟩
  | succ k ih =>
      intro t enough
      cases onward : t.ahead f with
      | nil =>
          rw [onward, List.length_nil] at enough
          omega
      | cons a l =>
          obtain ⟨t₁, next, seen, left⟩ := exists_round descends onward
          rw [onward, List.length_cons] at enough
          have fewer : k ≤ (t₁.ahead f).length := by
            rw [left]
            omega
          obtain ⟨t', later, seen', left'⟩ := ih fewer
          refine ⟨t', ?_, ?_, ?_⟩
          · show (t.round below).bind (after below k) = some t'
            rw [next]
            exact later
          · rw [seen', seen, left, List.append_assoc, List.singleton_append, List.take_succ_cons]
          · rw [left', left, List.drop_succ_cons]

/-- **The loop visits what the recursive walk does.** -/
theorem yields (descends : Descends below f) (roots : List α) :
    Yields below roots (roots.flatMap f) where
  visits k enough := by
    rw [← ahead_start] at enough ⊢
    obtain ⟨t, later, seen, -⟩ := exists_after descends enough
    exact ⟨t, later, seen⟩
  ends := by
    rw [← ahead_start]
    obtain ⟨⟨pending, visited⟩, later, seen, left⟩ :=
      exists_after descends (Nat.le_refl ((start roots).ahead f).length)
    rw [List.drop_length, ahead_eq_nil_iff descends] at left
    rw [List.take_length] at seen
    cases left
    cases seen
    exact later

end Tour

namespace Forest

/-! ## Where the nodes stand -/

/-- The node at a position: the number of its root, then the number of the node below that, and so
on down to its own. -/
def node? : Forest → List Nat → Option Node
  | _, [] => none
  | F, [i] => F[i]?
  | F, i :: j :: p => F[i]?.bind fun n => node? n.children (j :: p)

/-- A node with its position. -/
structure Spot where
  position : List Nat
  node : Node

/-- The trees of a forest, when it stands below this position. -/
def spots (above : List Nat) (F : Forest) : List Spot := F.mapIdx fun i n => ⟨above ++ [i], n⟩

/-- The nodes one level below. -/
def Spot.below (s : Spot) : List Spot := spots s.position s.node.children

mutual

/-- The recursive walk of a tree at a position. -/
def locatedNode (position : List Nat) : Node → List Spot
  | n@⟨_, _, _, _, children⟩ => ⟨position, n⟩ :: located position 0 children

/-- The recursive walk of a forest below a position, its trees numbered from `i` on. -/
def located (above : List Nat) (i : Nat) : List Node → List Spot
  | [] => []
  | n :: rest => locatedNode (above ++ [i]) n ++ located above (i + 1) rest

end

/-- **What it is to walk over a forest in depth-first order.** -/
structure InOrder (F : Forest) (visits : List Spot) : Prop where
  /-- The nodes of the forest are visited, and nothing else is. -/
  mem_iff : ∀ s, s ∈ visits ↔ F.node? s.position = some s.node
  /-- No position is visited twice. -/
  nodup : (visits.map Spot.position).Nodup
  /-- A node is visited before every node below it. -/
  above : ∀ s ∈ visits, ∀ t ∈ visits,
    (∃ i p, t.position = s.position ++ i :: p) → [s, t].Sublist visits
  /-- The nodes of a tree are visited before those of the trees that follow it. -/
  earlier : ∀ s ∈ visits, ∀ t ∈ visits,
    (∃ above i j p q, s.position = above ++ i :: p ∧ t.position = above ++ j :: q ∧ i < j) →
      [s, t].Sublist visits

/-- A fact about forests goes from what is below the first tree and from the other trees to all. -/
theorem induction_on_children {motive : Forest → Prop} (nil : motive [])
    (cons : ∀ n rest, motive n.children → motive rest → motive (n :: rest)) (F : Forest) :
    motive F := by
  match F with
  | [] => exact nil
  | ⟨_, _, _, _, children⟩ :: rest =>
      exact cons _ _ (induction_on_children nil cons children)
        (induction_on_children nil cons rest)

theorem node?_cons_succ (n : Node) (rest : Forest) (i : Nat) (p : List Nat) :
    node? (n :: rest) ((i + 1) :: p) = node? rest (i :: p) := by
  cases p <;> rfl

/-! ## The recursive walk -/

theorem descends_preorderNode : Tour.Descends Node.children preorderNode := by
  intro n
  rw [preorderNode_eq, preorder_eq_flatMap]

theorem locatedNode_eq (position : List Nat) (n : Node) :
    locatedNode position n = ⟨position, n⟩ :: located position 0 n.children := by
  cases n
  rfl

theorem located_cons (above : List Nat) (i : Nat) (n : Node) (rest : Forest) :
    located above i (n :: rest) =
      ⟨above ++ [i], n⟩ ::
        (located (above ++ [i]) 0 n.children ++ located above (i + 1) rest) := by
  rw [located, locatedNode_eq, List.cons_append]

theorem located_eq_flatMap (above : List Nat) (i : Nat) (F : Forest) :
    located above i F =
      (F.mapIdx fun j n => (⟨above ++ [i + j], n⟩ : Spot)).flatMap fun s =>
        locatedNode s.position s.node := by
  induction F generalizing i with
  | nil => rfl
  | cons n rest ih =>
      have shift : ∀ j, i + 1 + j = i + (j + 1) := by omega
      rw [located, ih, List.mapIdx_cons, List.flatMap_cons]
      simp only [shift, Nat.add_zero]

theorem located_zero (above : List Nat) (F : Forest) :
    located above 0 F = (spots above F).flatMap fun s => locatedNode s.position s.node := by
  rw [located_eq_flatMap, spots]
  simp only [Nat.zero_add]

theorem descends_locatedNode :
    Tour.Descends Spot.below fun s => locatedNode s.position s.node := by
  intro s
  show locatedNode s.position s.node = s :: s.below.flatMap _
  rw [locatedNode_eq, located_zero, Spot.below]

theorem map_node_located (F : Forest) :
    ∀ above i, (located above i F).map Spot.node = preorder F := by
  induction F using induction_on_children with
  | nil => exact fun _ _ => rfl
  | cons n rest children others =>
      intro above i
      rw [located_cons, List.map_cons, List.map_append, children, others, preorder, preorderNode_eq,
        List.cons_append]

/-- **The recursive walk comes by every position of the forest**, and by no other. -/
theorem mem_located_iff {s : Spot} {F : Forest} :
    ∀ {above : List Nat} {i : Nat}, s ∈ located above i F ↔
      ∃ j p, s.position = above ++ (i + j) :: p ∧ F.node? (j :: p) = some s.node := by
  induction F using induction_on_children with
  | nil =>
      intro above i
      constructor
      · intro member
        contradiction
      · rintro ⟨j, p, -, found⟩
        cases p <;> contradiction
  | cons n rest children others =>
      intro above i
      rw [located_cons, List.mem_cons, List.mem_append, children, others]
      constructor
      · rintro (rfl | ⟨j, p, place, found⟩ | ⟨j, p, place, found⟩)
        · exact ⟨0, [], rfl, rfl⟩
        · refine ⟨0, j :: p, ?_, found⟩
          simpa using place
        · refine ⟨j + 1, p, ?_, ?_⟩
          · rw [place, Nat.add_assoc, Nat.add_comm 1 j]
          · rw [node?_cons_succ]
            exact found
      · rintro ⟨_ | j, p, place, found⟩
        · cases p with
          | nil =>
              obtain ⟨position, node⟩ := s
              cases place
              cases found
              exact .inl rfl
          | cons k p =>
              refine .inr (.inl ⟨k, p, ?_, found⟩)
              simpa using place
        · refine .inr (.inr ⟨j, p, ?_, ?_⟩)
          · rw [place, Nat.add_assoc, Nat.add_comm 1 j]
          · rwa [node?_cons_succ] at found

/-! ## In order -/

theorem lt_append_cons (p q : List Nat) (i : Nat) : p < p ++ i :: q := by
  have further : p ++ [] < p ++ i :: q := List.append_left_lt (List.nil_lt_cons i q)
  rwa [List.append_nil] at further

theorem append_cons_lt (above p q : List Nat) {i j : Nat} (less : i < j) :
    above ++ i :: p < above ++ j :: q :=
  List.append_left_lt (List.cons_lt_cons_iff.mpr (.inl less))

/-- **The positions come in ascending order.** -/
theorem pairwise_located (F : Forest) :
    ∀ above i, (located above i F).Pairwise fun s t => s.position < t.position := by
  induction F using induction_on_children with
  | nil => exact fun _ _ => List.Pairwise.nil
  | cons n rest children others =>
      intro above i
      rw [located_cons, List.pairwise_cons, List.pairwise_append]
      refine ⟨?_, children _ _, others _ _, ?_⟩
      · intro t member
        rcases List.mem_append.mp member with inside | beside
        · obtain ⟨j, p, place, -⟩ := mem_located_iff.mp inside
          rw [place]
          exact lt_append_cons _ _ _
        · obtain ⟨j, p, place, -⟩ := mem_located_iff.mp beside
          rw [place]
          apply append_cons_lt
          omega
      · intro s inside t beside
        obtain ⟨j, p, place, -⟩ := mem_located_iff.mp inside
        obtain ⟨k, q, place', -⟩ := mem_located_iff.mp beside
        rw [place, place', List.append_assoc, List.singleton_append]
        apply append_cons_lt
        omega

/-- In a list that ascends by position, what has the smaller position comes first. -/
theorem sublist_of_lt {visits : List Spot} {s t : Spot}
    (ascends : visits.Pairwise fun s t => s.position < t.position) (first : s ∈ visits)
    (second : t ∈ visits) (less : s.position < t.position) : [s, t].Sublist visits := by
  obtain ⟨front, back, rfl⟩ := List.append_of_mem first
  rw [List.pairwise_append] at ascends
  rw [List.mem_append, List.mem_cons] at second
  -- In front of the first there is only what has a smaller position than it.
  rcases second with before | rfl | behind
  · have greater := ascends.2.2 t before s List.mem_cons_self
    exact absurd greater (List.lt_asymm less)
  · exact absurd less (List.lt_irrefl _)
  · have pair := (List.singleton_sublist.mpr behind).cons_cons s
    exact pair.trans (List.sublist_append_right front (s :: back))

theorem inOrder_located (F : Forest) : InOrder F (located [] 0 F) where
  mem_iff s := by
    rw [mem_located_iff]
    constructor
    · rintro ⟨j, p, place, found⟩
      rwa [place, List.nil_append, Nat.zero_add]
    · intro found
      cases place : s.position with
      | nil =>
          rw [place] at found
          contradiction
      | cons j p =>
          rw [place] at found
          exact ⟨j, p, by simp, found⟩
  nodup := by
    rw [List.Nodup, List.pairwise_map]
    refine (pairwise_located F [] 0).imp fun less same => ?_
    exact List.lt_irrefl _ (same ▸ less)
  above := by
    rintro s first t second ⟨i, p, place⟩
    apply sublist_of_lt (pairwise_located F [] 0) first second
    rw [place]
    exact lt_append_cons _ _ _
  earlier := by
    rintro s first t second ⟨above, i, j, p, q, place, place', less⟩
    apply sublist_of_lt (pairwise_located F [] 0) first second
    rw [place, place']
    exact append_cons_lt _ _ _ less

/-- **The walk with the stack is the recursive one.**  The loop over the roots visits what the
recursive walk does, and then ends.  Told apart by their positions, the nodes are visited once each,
a node before all below it and after the whole trees of its earlier siblings. -/
theorem walk_depthFirst (F : Forest) :
    walk F = preorder F ∧
    Tour.Yields Node.children F (walk F) ∧
    Tour.Yields Spot.below (spots [] F) (located [] 0 F) ∧
    (located [] 0 F).map Spot.node = walk F ∧
    InOrder F (located [] 0 F) := by
  have same := walk_eq_preorder F
  have nodes := Tour.yields descends_preorderNode F
  have placed := Tour.yields descends_locatedNode (spots [] F)
  rw [← preorder_eq_flatMap, ← same] at nodes
  rw [← located_zero] at placed
  exact ⟨same, nodes, placed, (map_node_located F [] 0).trans same.symm, inOrder_located F⟩

end Forest

end CodeAtlas.Hierarchy
