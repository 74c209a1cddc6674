/-
# Proofs.Path -- paths as their components

A component is a text that is not empty, not `.`, and holds no slash (`IsComponent`); a *name* is a
component other than `..` (`IsName`).  Reading gives components only, and a path made of components
is read back from its text (`ofText_toText`).

The normal form of an absolute path is made of names (`isName_of_mem_normalize`).  The way from one
absolute path to another climbs from the first and descends to the second, so following it leads to
the second (`normalize_append_relativeTo`), with the slashes of the first in front: that is all that
is forgotten.
-/
import CodeAtlas.Path
import CodeAtlas.Proofs.Text.Pieces

namespace CodeAtlas.Path

set_option autoImplicit false

/-! ## Components -/

structure IsComponent (c : Text) : Prop where
  ne_nil : c ≠ []
  ne_dot : c ≠ "."
  no_slash : '/' ∉ c

/-- A component that leads down. -/
structure IsName (c : Text) : Prop extends IsComponent c where
  ne_dots : c ≠ ".."

instance : DecidablePred IsName := fun c =>
  decidable_of_iff ((c ≠ [] ∧ c ≠ "." ∧ '/' ∉ c) ∧ c ≠ "..")
    ⟨fun ⟨⟨solid, dot, slash⟩, dots⟩ => ⟨⟨solid, dot, slash⟩, dots⟩,
      fun name => ⟨⟨name.ne_nil, name.ne_dot, name.no_slash⟩, name.ne_dots⟩⟩

/-- A path that reading can give. -/
structure WellFormed (p : Path) : Prop where
  root : p.root ≤ 2
  parts : ∀ c ∈ p.parts, IsComponent c

theorem WellFormed.of_names {p : Path} (root : p.root ≤ 2) (names : ∀ c ∈ p.parts, IsName c) :
    WellFormed p :=
  ⟨root, fun c member => (names c member).toIsComponent⟩

theorem isComponent_of_mem_components {t c : Text} (member : c ∈ components t) : IsComponent c := by
  rw [components, List.mem_filter, Bool.and_eq_true] at member
  obtain ⟨piece, solid, other⟩ := member
  exact ⟨by simpa using solid, by simpa using other, Text.not_mem_of_mem_splitOn piece⟩

theorem rootOf_le (t : Text) : rootOf t ≤ 2 := by
  rw [rootOf]
  split
  · exact le_rfl
  · exact (Nat.min_le_right _ _).trans (by decide)

theorem wellFormed_ofText (t : Text) : WellFormed (ofText t) :=
  ⟨rootOf_le t, fun _ => isComponent_of_mem_components⟩

/-! ## Reading what has been written -/

theorem components_slash (t : Text) : components ('/' :: t) = components t := by
  rw [components, Text.splitOn_cons_self, List.filter_cons_of_neg (by simp)]
  rfl

theorem components_replicate (n : Nat) (t : Text) :
    components (List.replicate n '/' ++ t) = components t := by
  induction n with
  | zero => rfl
  | succ n ih => rw [List.replicate_succ, List.cons_append, components_slash, ih]

theorem components_join {parts : List Text} (all : ∀ c ∈ parts, IsComponent c) :
    components (Text.join "/" parts) = parts := by
  change components (Text.join ['/'] parts) = parts
  rw [components]
  by_cases empty : parts = []
  · subst empty
    decide
  · rw [Text.splitOn_join empty fun c member => (all c member).no_slash, List.filter_eq_self]
    intro c member
    rw [Bool.and_eq_true, bne_iff_ne]
    exact ⟨by simp [(all c member).ne_nil], (all c member).ne_dot⟩

/-- The text of a list of components does not begin with a slash. -/
theorem takeWhile_join {parts : List Text} (all : ∀ c ∈ parts, IsComponent c) :
    (Text.join "/" parts).takeWhile (· == '/') = [] := by
  cases parts with
  | nil => rfl
  | cons c parts =>
      have component := all c List.mem_cons_self
      obtain ⟨a, c', rfl⟩ := List.exists_cons_of_ne_nil component.ne_nil
      have other : a ≠ '/' := by
        rintro rfl
        exact component.no_slash List.mem_cons_self
      have begins : ∃ rest, Text.join "/" ((a :: c') :: parts) = a :: rest := by
        cases parts with
        | nil => exact ⟨c', by rw [Text.join_singleton]⟩
        | cons next parts => exact ⟨_, by rw [Text.join_cons_cons]; rfl⟩
      obtain ⟨rest, shape⟩ := begins
      rw [shape, List.takeWhile_cons_of_neg (by simpa using other)]

theorem rootOf_replicate {n : Nat} (few : n ≤ 2) {parts : List Text}
    (all : ∀ c ∈ parts, IsComponent c) :
    rootOf (List.replicate n '/' ++ Text.join "/" parts) = n := by
  have slashes : (List.replicate n '/' ++ Text.join "/" parts).takeWhile (· == '/') =
      List.replicate n '/' := by
    rw [List.takeWhile_append_of_pos (by simp), takeWhile_join all, List.append_nil]
  rw [rootOf, slashes, List.length_replicate]
  split <;> omega

/-- **A path is read back from its text.** -/
theorem ofText_toText {p : Path} (wellFormed : WellFormed p) : ofText p.toText = p := by
  obtain ⟨root, parts⟩ := p
  rw [toText]
  dsimp only
  split
  · rename_i empty
    rw [List.isEmpty_iff, List.append_eq_nil_iff] at empty
    obtain ⟨noRoot, noParts⟩ := empty
    have parts_eq : parts = [] := by
      have := components_join wellFormed.parts
      rw [noParts] at this
      exact this.symm
    have root_eq : root = 0 := by simpa using noRoot
    subst parts_eq root_eq
    decide
  · rw [ofText, components_replicate, components_join wellFormed.parts,
      rootOf_replicate wellFormed.root wellFormed.parts]

theorem toText_ne_nil (p : Path) : p.toText ≠ [] := by
  rw [toText]
  split
  · decide
  · rename_i some_
    simpa using some_

theorem toText_inj {p q : Path} (hp : WellFormed p) (hq : WellFormed q) :
    p.toText = q.toText ↔ p = q := by
  constructor
  · intro same
    rw [← ofText_toText hp, same, ofText_toText hq]
  · rintro rfl
    rfl

/-! ## Climbing and descending -/

theorem climb_of_ne (absolute : Bool) (above : List Text) {part : Text} (name : part ≠ "..") :
    climb absolute above part = part :: above := by
  rw [climb.eq_def, if_neg (by simpa using name)]

/-- At the root nothing is above. -/
theorem climb_nil_dots : climb true [] ".." = [] := by decide

theorem climb_cons_dots (absolute : Bool) (rest : List Text) {last : Text} (name : last ≠ "..") :
    climb absolute (last :: rest) ".." = rest := by
  rw [climb.eq_def, if_pos (by simp)]
  dsimp only
  rw [if_neg (by simpa using name)]

theorem foldl_climb_of_ne (absolute : Bool) (above : List Text) {parts : List Text}
    (names : ∀ c ∈ parts, c ≠ "..") :
    parts.foldl (climb absolute) above = parts.reverse ++ above := by
  induction parts generalizing above with
  | nil => rfl
  | cons c parts ih =>
      rw [List.foldl_cons, climb_of_ne absolute above (names c List.mem_cons_self),
        ih _ fun d later => names d (List.mem_cons_of_mem _ later)]
      simp

/-- From the root only names are left above. -/
theorem mem_foldl_climb {above parts : List Text} (names : ∀ c ∈ above, c ≠ "..") {c : Text}
    (member : c ∈ parts.foldl (climb true) above) : (c ∈ above ∨ c ∈ parts) ∧ c ≠ ".." := by
  induction parts generalizing above with
  | nil => exact ⟨.inl member, names c member⟩
  | cons part parts ih =>
      rw [List.foldl_cons] at member
      by_cases dots : part = ".."
      · subst dots
        cases above with
        | nil =>
            rw [climb_nil_dots] at member
            obtain ⟨here, name⟩ := ih names member
            exact ⟨here.imp_right (List.mem_cons_of_mem _), name⟩
        | cons last rest =>
            rw [climb_cons_dots true rest (names last List.mem_cons_self)] at member
            obtain ⟨here, name⟩ := ih (fun d older => names d (List.mem_cons_of_mem _ older)) member
            exact ⟨here.imp (List.mem_cons_of_mem _) (List.mem_cons_of_mem _), name⟩
      · rw [climb_of_ne true above dots] at member
        have names' : ∀ d ∈ part :: above, d ≠ ".." := List.forall_mem_cons.mpr ⟨dots, names⟩
        obtain ⟨here, name⟩ := ih names' member
        refine ⟨?_, name⟩
        simp only [List.mem_cons] at here ⊢
        tauto

/-- Every `..` takes one name away. -/
theorem foldl_climb_dots {above : List Text} (names : ∀ c ∈ above, c ≠ "..") (n : Nat) :
    (List.replicate n "..".toList).foldl (climb true) above = above.drop n := by
  induction n generalizing above with
  | zero => rfl
  | succ n ih =>
      rw [List.replicate_succ, List.foldl_cons]
      cases above with
      | nil => rw [climb_nil_dots, ih (by simp), List.drop_nil, List.drop_nil]
      | cons last rest =>
          rw [climb_cons_dots true rest (names last List.mem_cons_self),
            ih fun c member => names c (List.mem_cons_of_mem _ member), List.drop_succ_cons]

/-! ## Normal forms -/

theorem mem_normalize {p : Path} (absolute : p.isAbsolute = true) {c : Text}
    (member : c ∈ p.normalize.parts) : c ∈ p.parts ∧ c ≠ ".." := by
  rw [normalize, absolute, List.mem_reverse] at member
  obtain ⟨here, name⟩ := mem_foldl_climb (by simp) member
  exact ⟨here.resolve_left List.not_mem_nil, name⟩

/-- **The normal form of an absolute path is made of names.** -/
theorem isName_of_mem_normalize {p : Path} (wellFormed : WellFormed p)
    (absolute : p.isAbsolute = true) {c : Text} (member : c ∈ p.normalize.parts) : IsName c := by
  obtain ⟨part, name⟩ := mem_normalize absolute member
  exact ⟨wellFormed.parts c part, name⟩

theorem normalize_of_names {p : Path} (names : ∀ c ∈ p.parts, c ≠ "..") : p.normalize = p := by
  rw [normalize, foldl_climb_of_ne _ _ names]
  simp

theorem append_of_isAbsolute (p : Path) {q : Path} (absolute : q.isAbsolute = true) :
    p ++ q = q := by
  change append p q = q
  rw [append, if_pos absolute]

/-! ## The way from one path to another -/

theorem commonStart_eq_take (l r : List Text) :
    commonStart l r = l.take (commonStart l r).length ∧
      commonStart l r = r.take (commonStart l r).length := by
  induction l, r using commonStart.induct with
  | case1 a l b r same ih =>
      rw [beq_iff_eq] at same
      subst same
      simp only [commonStart, beq_self_eq_true, if_true, List.length_cons, List.take_succ_cons,
        List.cons.injEq, true_and]
      exact ih
  | case2 a l b r other => simp [commonStart, other]
  | case3 l r other =>
      have nothing : commonStart l r = [] := by
        rw [commonStart]
        exact other
      simp [nothing]

theorem length_commonStart_le (l r : List Text) : (commonStart l r).length ≤ l.length := by
  have start := congrArg List.length (commonStart_eq_take l r).1
  rw [List.length_take] at start
  omega

/-- The way is made of components, and starts at no root. -/
theorem wellFormed_relativeTo {here start p : Path} (wellFormed : WellFormed p)
    (absolute : p.isAbsolute = true) : WellFormed (relativeTo here start p) := by
  refine ⟨Nat.zero_le 2, fun c member => ?_⟩
  rcases List.mem_append.mp member with up | down
  · rw [List.mem_replicate] at up
    rw [up.2]
    exact ⟨by decide, by decide, by decide⟩
  · have target := List.mem_of_mem_drop down
    rw [Path.absolute, append_of_isAbsolute here absolute] at target
    exact wellFormed.parts c (mem_normalize absolute target).1

/-- **Following the way from one absolute path to another leads to the other.** -/
theorem normalize_append_relativeTo {here start p : Path} (absoluteStart : start.isAbsolute = true)
    (absolute : p.isAbsolute = true) :
    (start ++ relativeTo here start p).normalize = ⟨start.root, p.normalize.parts⟩ := by
  have joined : start ++ relativeTo here start p =
      ⟨start.root, start.parts ++ (relativeTo here start p).parts⟩ := rfl
  have names : ∀ c ∈ p.normalize.parts, c ≠ ".." := fun c member =>
    (mem_normalize absolute member).2
  have source : (start.parts.foldl (climb true) []) = start.normalize.parts.reverse := by
    rw [normalize, absoluteStart, List.reverse_reverse]
  have sourceNames : ∀ c ∈ start.normalize.parts.reverse, c ≠ ".." := fun c member =>
    (mem_normalize absoluteStart (List.mem_reverse.mp member)).2
  have way : (relativeTo here start p).parts =
      List.replicate (start.normalize.parts.length -
          (commonStart start.normalize.parts p.normalize.parts).length) "..".toList ++
        p.normalize.parts.drop (commonStart start.normalize.parts p.normalize.parts).length := by
    rw [relativeTo, Path.absolute, Path.absolute, append_of_isAbsolute here absoluteStart,
      append_of_isAbsolute here absolute]
  obtain ⟨fromStart, fromTarget⟩ := commonStart_eq_take start.normalize.parts p.normalize.parts
  have short := length_commonStart_le start.normalize.parts p.normalize.parts
  revert way fromStart fromTarget short
  generalize commonStart start.normalize.parts p.normalize.parts = common
  intro way fromStart fromTarget short
  have climbed : start.normalize.parts.reverse.drop (start.normalize.parts.length - common.length) =
      common.reverse := by
    rw [List.drop_reverse, Nat.sub_sub_self short, ← fromStart]
  have rest : ∀ c ∈ p.normalize.parts.drop common.length, c ≠ ".." := fun c member =>
    names c (List.mem_of_mem_drop member)
  have arrived : common ++ p.normalize.parts.drop common.length = p.normalize.parts := by
    conv_lhs => lhs; rw [fromTarget]
    exact List.take_append_drop _ _
  rw [joined, normalize]
  change Path.mk start.root (List.foldl (climb start.isAbsolute) [] _).reverse = _
  rw [absoluteStart, way, List.foldl_append, List.foldl_append, source,
    foldl_climb_dots sourceNames, climbed, foldl_climb_of_ne _ _ rest, List.reverse_append,
    List.reverse_reverse, List.reverse_reverse, arrived]

end CodeAtlas.Path
