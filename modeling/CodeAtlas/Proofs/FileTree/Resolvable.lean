/-
# Proofs.FileTree.Resolvable -- trees in which every path has a real place

A path is *resolvable* when all the links on its way can be resolved.  Whether anything stands where
they lead does not matter, nor how often they lead up: a link to nothing is resolvable, and so is
one to a directory it stands in.  Only a link that leads back to itself is not.

The place that a path is resolved to has no links on its way (`Straight`), so `realPath` arrives
there and nothing stops it (`realPath_of_resolves`).  And the links of a tree can be looked at one by
one: if each is resolvable, so is every path (`resolvable_of_links`).

How deep links may be within links does not matter for `resolveFrom`, if it is as deep as there are
links (`resolveFrom_eq_of_le`).
-/
import CodeAtlas.Proofs.FileTree.Resolve

namespace CodeAtlas.FileTree

set_option autoImplicit false

variable {t : FileTree} {depth : Nat} {active : List Place} {here mid p : Place}
  {names rest : List Text} {name : Text} {path : Path}

/-- **All the links on the way along a path can be resolved**, however deep within links. -/
def Resolvable (t : FileTree) (path : Path) : Prop := ∃ depth p, Resolves t depth [] path.parts p

/-! ## Deciding -/

/-- Where nothing is left, all names have been resolved. -/
theorem resolves_of_resolveFrom (whole : (t.resolveFrom depth active here names).left = none) :
    Resolves t depth here names (t.resolveFrom depth active here names).place := by
  induction depth, active, here, names using resolveFrom.induct t with
  | case1 depth active here =>
      rw [resolveFrom]
      exact .done
  | case2 depth active here name rest dots ih =>
      obtain rfl := beq_iff_eq.mp dots
      rw [resolveFrom_up] at whole ⊢
      exact .up (ih whole)
  | case3 depth active here name rest next dots target node met =>
      have again := Or.inl (b := depth = 0) (List.contains_iff_mem.mp met)
      rw [resolveFrom_again (by simpa using dots) node again] at whole
      cases whole
  | case4 active here name rest next dots target node new =>
      rw [resolveFrom_again (by simpa using dots) node (.inr rfl)] at whole
      cases whole
  | case5 active here name rest next dots target node new depth path start place behind ih ih' =>
      have dots : name ≠ ".." := by simpa using dots
      rw [resolveFrom_past dots node (by simpa using new) behind] at whole ⊢
      rw [behind] at ih
      exact .past dots node (ih rfl) (ih' whole)
  | case6 active here name rest next dots target node new depth path start place left behind ih =>
      rw [resolveFrom_lost (by simpa using dots) node (by simpa using new) behind] at whole
      cases whole
  | case7 depth active here name rest next dots notLink ih =>
      have dots : name ≠ ".." := by simpa using dots
      rw [resolveFrom_plain dots notLink] at whole ⊢
      exact .plain dots notLink (ih whole)

/-- **A path is resolvable exactly if nothing of it is left.** -/
theorem resolvable_iff :
    Resolvable t path ↔ (t.resolveFrom t.linkCount [] [] path.parts).left = none := by
  constructor
  · rintro ⟨depth, p, resolves⟩
    rw [resolveFrom_linkCount resolves]
  · exact fun whole => ⟨_, _, resolves_of_resolveFrom whole⟩

instance : DecidablePred (Resolvable t) := fun _ => decidable_of_iff _ resolvable_iff.symm

/-- **No link is too deep within links to be resolved**: how many may be does not matter, when there
are as many as links that are not being resolved. -/
theorem resolveFrom_eq_of_le (ongoing : Ongoing t active)
    (enough : t.linkCount ≤ depth + active.length) :
    ∀ depth', t.linkCount ≤ depth' + active.length →
      t.resolveFrom depth active here names = t.resolveFrom depth' active here names := by
  induction depth, active, here, names using resolveFrom.induct t with
  | case1 depth active here =>
      intro depth' enough'
      rw [resolveFrom, resolveFrom]
  | case2 depth active here name rest dots ih =>
      intro depth' enough'
      obtain rfl := beq_iff_eq.mp dots
      rw [resolveFrom_up, resolveFrom_up, ih ongoing enough depth' enough']
  | case3 depth active here name rest next dots target node met =>
      intro depth' enough'
      have met : here ++ [name] ∈ active := List.contains_iff_mem.mp met
      rw [resolveFrom_again (by simpa using dots) node (.inl met),
        resolveFrom_again (by simpa using dots) node (.inl met)]
  | case4 active here name rest next dots target node new =>
      have more := ongoing.cons node (by simpa using new)
      obtain ⟨less, none_, -⟩ := more.exists_less enough
      cases none_
  | case5 active here name rest next dots target node new depth path start place behind ih ih' =>
      intro depth' enough'
      have dots : name ≠ ".." := by simpa using dots
      have new : here ++ [name] ∉ active := by simpa using new
      have more := ongoing.cons node new
      obtain ⟨less, same, inner⟩ := more.exists_less enough
      obtain rfl := Nat.succ.inj same
      obtain ⟨less', rfl, inner'⟩ := more.exists_less enough'
      rw [resolveFrom_past dots node new behind,
        resolveFrom_past dots node new ((ih more inner less' inner').symm.trans behind),
        ih' ongoing enough _ enough']
  | case6 active here name rest next dots target node new depth path start place left behind ih =>
      intro depth' enough'
      have dots : name ≠ ".." := by simpa using dots
      have new : here ++ [name] ∉ active := by simpa using new
      have more := ongoing.cons node new
      obtain ⟨less, same, inner⟩ := more.exists_less enough
      obtain rfl := Nat.succ.inj same
      obtain ⟨less', rfl, inner'⟩ := more.exists_less enough'
      rw [resolveFrom_lost dots node new behind,
        resolveFrom_lost dots node new ((ih more inner less' inner').symm.trans behind)]
  | case7 depth active here name rest next dots notLink ih =>
      intro depth' enough'
      rw [resolveFrom_plain (by simpa using dots) notLink,
        resolveFrom_plain (by simpa using dots) notLink, ih ongoing enough depth' enough']

/-- **Trees with the same links resolve a path alike.** -/
theorem resolved_congr {t' : FileTree}
    (links : ∀ p target, t.node? p = some (.link target) ↔ t'.node? p = some (.link target)) :
    t'.resolved path = t.resolved path := by
  have same : t'.resolveFrom t'.linkCount [] [] path.parts =
      t.resolveFrom t.linkCount [] [] path.parts :=
    calc t'.resolveFrom t'.linkCount [] [] path.parts
        = t'.resolveFrom (max t'.linkCount t.linkCount) [] [] path.parts :=
          resolveFrom_eq_of_le (ongoing_nil t') (Nat.le_refl _) _ (Nat.le_max_left _ _)
      _ = t.resolveFrom (max t'.linkCount t.linkCount) [] [] path.parts := resolveFrom_congr links
      _ = t.resolveFrom t.linkCount [] [] path.parts :=
          resolveFrom_eq_of_le (ongoing_nil t) (Nat.le_max_right _ _) _ (Nat.le_refl _)
  rw [resolved, resolved, same]

/-- A real path is the same in a tree with the same links, if it ends there, too. -/
theorem realPath_congr {t' : FileTree} {real : Path}
    (links : ∀ p target, t.node? p = some (.link target) ↔ t'.node? p = some (.link target))
    (found : t.realPath path = .ok real) (ends : t'.locate real ≠ .error .tooManyLinks) :
    t'.realPath path = .ok real := by
  have resolved : t'.resolved path = real :=
    (resolved_congr links).trans (eq_resolved_of_realPath found).symm
  rw [realPath, resolved]
  split
  · rename_i stopped
    exact absurd stopped ends
  · rfl

/-! ## Places without links on their way -/

/-- No link is on the way down to a place, and no name leads up. -/
structure Straight (t : FileTree) (p : Place) : Prop where
  ne_dots : ∀ name ∈ p, name ≠ ".."
  notLink : ∀ start, start <+: p → ∀ target, t.node? start ≠ some (.link target)

theorem straight_nil (t : FileTree) : Straight t [] := by
  refine ⟨by simp, fun start above target => ?_⟩
  rw [List.prefix_nil.mp above, node?_nil]
  rintro ⟨⟩

theorem Straight.dropLast (straight : Straight t p) : Straight t p.dropLast :=
  ⟨fun name member => straight.ne_dots name (List.dropLast_subset _ member),
    fun start above => straight.notLink start (above.trans (List.dropLast_prefix p))⟩

theorem Straight.concat (straight : Straight t p) (dots : name ≠ "..")
    (notLink : ∀ target, t.node? (p ++ [name]) ≠ some (.link target)) :
    Straight t (p ++ [name]) := by
  refine ⟨List.forall_mem_append.mpr ⟨straight.ne_dots, by simpa using dots⟩, fun start above => ?_⟩
  rcases List.prefix_concat_iff.mp above with rfl | above
  · exact notLink
  · exact straight.notLink start above

theorem Straight.start (straight : Straight t p) (absolute : Bool) :
    Straight t (if absolute then [] else p) := by
  cases absolute with
  | true => exact straight_nil t
  | false => exact straight

/-- **Names are resolved to a place without links on its way.** -/
theorem Resolves.straight (resolves : Resolves t depth here names p) (straight : Straight t here) :
    Straight t p := by
  induction resolves with
  | done => exact straight
  | up _ ih => exact ih straight.dropLast
  | plain dots notLink _ ih => exact ih (straight.concat dots notLink)
  | past _ _ _ _ ih ih' => exact ih' (ih (straight.start _))

/-- Names without links among them are taken as they are. -/
theorem Resolves.of_append (straight : Straight t (here ++ mid))
    (resolves : Resolves t depth here (mid ++ rest) p) : Resolves t depth (here ++ mid) rest p := by
  induction mid generalizing here with
  | nil => simpa using resolves
  | cons name mid ih =>
      have whole : here ++ name :: mid = here ++ [name] ++ mid := by simp
      rw [whole] at straight ⊢
      cases resolves with
      | up => exact absurd rfl (straight.ne_dots ".." (by simp))
      | plain _ _ onward => exact ih straight onward
      | past _ node => exact absurd node (straight.notLink _ (List.prefix_append _ _) _)

/-- A walk that meets no links is not given up for too many of them. -/
theorem locateFrom_ne_tooManyLinks {follow : Bool} {links : Nat}
    (components : ∀ c ∈ names, Path.IsComponent c) (straight : Straight t (here ++ names)) :
    t.locateFrom follow links here names ≠ .error .tooManyLinks := by
  induction names generalizing here with
  | nil =>
      rw [locateFrom]
      rintro ⟨⟩
  | cons name rest ih =>
      rw [List.forall_mem_cons] at components
      have dots : name ≠ ".." := straight.ne_dots name (by simp)
      have whole : here ++ name :: rest = here ++ [name] ++ rest := by simp
      rw [whole] at straight
      rw [locateFrom, if_neg (by simpa using dots),
        if_neg (by simpa using ⟨components.1.ne_nil, components.1.ne_dot⟩)]
      split
      · rintro ⟨⟩
      · exact ih components.2 straight
      · split
        · rintro ⟨⟩
        · rintro ⟨⟩
      · rename_i target node
        exact absurd node (straight.notLink _ (List.prefix_append _ _) target)

/-! ## Real places -/

/-- **The real place of a path that resolves is the place it is resolved to.** -/
theorem realPath_of_resolves (wellFormed : Path.WellFormed path)
    (resolves : Resolves t depth [] path.parts p) : t.realPath path = .ok ⟨1, p⟩ := by
  have resolved := resolveFrom_linkCount resolves
  have components : ∀ c ∈ p, Path.IsComponent c := by
    have all : ∀ c ∈ (t.resolveFrom t.linkCount [] [] path.parts).place ++
        (t.resolveFrom t.linkCount [] [] path.parts).left.getD [], Path.IsComponent c :=
      isComponent_of_resolveFrom (by simp) wellFormed.parts
    simpa [resolved] using all
  have straight : Straight t ([] ++ p) := resolves.straight (straight_nil t)
  have located : t.locate ⟨1, p⟩ ≠ .error .tooManyLinks :=
    locateFrom_ne_tooManyLinks components straight
  rw [realPath, resolved_eq resolved]
  split
  · rename_i stopped
    exact absurd stopped located
  · rfl

/-- **A tree whose links are resolvable one by one** has no path that is not. -/
theorem resolvable_of_links
    (links : ∀ p target, t.node? p = some (.link target) → Resolvable t ⟨1, p⟩) (path : Path) :
    Resolvable t path := by
  have on (names : List Text) : ∀ {here}, Straight t here →
      ∃ depth p, Resolves t depth here names p := by
    induction names with
    | nil => exact fun _ => ⟨0, _, .done⟩
    | cons name rest ih =>
        intro here straight
        by_cases dots : name = ".."
        · obtain ⟨depth, p, onward⟩ := ih straight.dropLast
          exact ⟨depth, p, dots ▸ .up onward⟩
        by_cases link : ∃ target, t.node? (here ++ [name]) = some (.link target)
        · obtain ⟨target, node⟩ := link
          obtain ⟨depth, q, whole⟩ := links _ target node
          -- Above the link there are none, so what resolves the link resolves its last name.
          have last : Resolves t depth ([] ++ here) [name] q := .of_append straight whole
          obtain ⟨left, q', rfl, behind, -⟩ := last.behind dots node
          obtain ⟨depth', p, onward⟩ := ih (behind.straight (straight.start _))
          refine ⟨max left depth' + 1, p, .past dots node (behind.more (Nat.le_max_left _ _)) ?_⟩
          exact onward.more ((Nat.le_max_right _ _).trans (Nat.le_succ _))
        · push Not at link
          obtain ⟨depth, p, onward⟩ := ih (straight.concat dots link)
          exact ⟨depth, p, .plain dots link onward⟩
  exact on path.parts (straight_nil t)

end CodeAtlas.FileTree
