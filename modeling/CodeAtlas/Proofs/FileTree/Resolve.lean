/-
# Proofs.FileTree.Resolve -- the real place of a path that leads somewhere

Two procedures follow links: `locate` goes from link to link and counts them, `realPath` resolves a
link before it goes on and remembers which ones it is resolving.  `Resolves` is the second as a
relation, which only counts how deep links are within links and remembers none.  Where `locate`
arrives, names resolve to the same place (`resolves_of_leads`), and what resolves is resolved by
`realPath` (`resolveFrom_of_resolves`); so the real place of a path is where it leads
(`realPath_of_locate_eq_ok`).

A link that is being resolved is never met again on the way.  To get behind it takes links that are
deeper than what is left for the way it stands for, so that way would not resolve either
(`Pending`).  And there are never more links being resolved than the tree has
(`length_le_linkCount`).
-/
import CodeAtlas.Proofs.FileTree.Grounded

namespace CodeAtlas.FileTree

set_option autoImplicit false

variable {t : FileTree} {follow : Bool} {links root : Nat} {here p q : Place}
  {names rest : List Text} {name : Text} {path : Path}

/-! ## Parts of a walk -/

/-- A walk along some names and then others stops in between, in a directory. -/
theorem Leads.split (leads : Leads t true links here (names ++ rest) p) :
    ∃ q, Leads t true links here names q ∧ Leads t true links q rest p ∧
      (rest ≠ [] → Grounded t here → Grounded t q) := by
  generalize whole : names ++ rest = all at leads
  induction leads generalizing names with
  | arrived =>
      obtain ⟨rfl, rfl⟩ := List.append_eq_nil_iff.mp whole
      exact ⟨_, .arrived, .arrived, fun more => absurd rfl more⟩
  | up onward ih =>
      rcases List.append_eq_cons_iff.mp whole with ⟨rfl, rfl⟩ | ⟨names, rfl, rfl⟩
      · exact ⟨_, .arrived, .up onward, fun _ grounded => grounded⟩
      · obtain ⟨q, first, second, stop⟩ := ih rfl
        exact ⟨q, .up first, second, fun more grounded => stop more grounded.dropLast⟩
  | stay nowhere onward ih =>
      rcases List.append_eq_cons_iff.mp whole with ⟨rfl, rfl⟩ | ⟨names, rfl, rfl⟩
      · exact ⟨_, .arrived, .stay nowhere onward, fun _ grounded => grounded⟩
      · obtain ⟨q, first, second, stop⟩ := ih rfl
        exact ⟨q, .stay nowhere first, second, stop⟩
  | down entry node onward ih =>
      rcases List.append_eq_cons_iff.mp whole with ⟨rfl, rfl⟩ | ⟨names, rfl, rfl⟩
      · exact ⟨_, .arrived, .down entry node onward, fun _ grounded => grounded⟩
      · obtain ⟨q, first, second, stop⟩ := ih rfl
        exact ⟨q, .down entry node first, second,
          fun more grounded => stop more (grounded.concat node)⟩
  | file entry node =>
      rcases List.append_eq_cons_iff.mp whole with ⟨rfl, rfl⟩ | ⟨names, rfl, later⟩
      · exact ⟨_, .arrived, .file entry node, fun _ grounded => grounded⟩
      · obtain ⟨rfl, rfl⟩ := List.append_eq_nil_iff.mp later.symm
        exact ⟨_, .file entry node, .arrived, fun more => absurd rfl more⟩
  | link _ _ stop => cases stop
  | @through links here p name target rest' entry node go onward ih =>
      rcases List.append_eq_cons_iff.mp whole with ⟨rfl, rfl⟩ | ⟨names, rfl, rfl⟩
      · exact ⟨_, .arrived, .through entry node go onward, fun _ grounded => grounded⟩
      · obtain ⟨q, first, second, stop⟩ := ih (List.append_assoc _ names rest)
        exact ⟨q, .through entry node (fun _ => rfl) first, second.more (Nat.le_succ _),
          fun more grounded => stop more (grounded.start _)⟩

/-- The place where a walk arrives has names of entries only. -/
theorem Leads.named (leads : Leads t follow links here names p) (named : Named here) : Named p := by
  induction leads with
  | arrived => exact named
  | up _ ih => exact ih fun name member => named name (List.dropLast_subset _ member)
  | stay _ _ ih => exact ih named
  | down entry _ _ ih => exact ih (named.concat entry)
  | file entry _ => exact named.concat entry
  | link entry _ _ => exact named.concat entry
  | through _ _ _ _ ih =>
      refine ih ?_
      split
      · exact fun name member => absurd member List.not_mem_nil
      · exact named

/-- A walk that follows links arrives at a file or a directory. -/
theorem Leads.exists_node (leads : Leads t true links here names p) (grounded : Grounded t here) :
    ∃ n, t.node? p = some n ∧ ∀ target, n ≠ .link target := by
  induction leads with
  | arrived => exact ⟨_, grounded.self, by rintro target ⟨⟩⟩
  | up _ ih => exact ih grounded.dropLast
  | stay _ _ ih => exact ih grounded
  | down _ node _ ih => exact ih (grounded.concat node)
  | file _ node => exact ⟨_, node, by rintro target ⟨⟩⟩
  | link _ _ stop => cases stop
  | through _ _ _ _ ih => exact ih (grounded.start _)

/-! ## Resolving as a relation -/

/-- **Names are resolved to a place**, with links at most `depth` deep within links. -/
inductive Resolves (t : FileTree) : Nat → Place → List Text → Place → Prop
  | done {depth : Nat} {here : Place} : Resolves t depth here [] here
  | up {depth : Nat} {here p : Place} {rest : List Text}
      (onward : Resolves t depth here.dropLast rest p) :
      Resolves t depth here ("..".toList :: rest) p
  | plain {depth : Nat} {here p : Place} {name : Text} {rest : List Text} (dots : name ≠ "..")
      (notLink : ∀ target, t.node? (here ++ [name]) ≠ some (.link target))
      (onward : Resolves t depth (here ++ [name]) rest p) : Resolves t depth here (name :: rest) p
  | past {depth : Nat} {here p q : Place} {name target : Text} {rest : List Text}
      (dots : name ≠ "..") (node : t.node? (here ++ [name]) = some (.link target))
      (behind : Resolves t depth (if (Path.ofText target).isAbsolute then [] else here)
        (Path.components target) q)
      (onward : Resolves t (depth + 1) q rest p) : Resolves t (depth + 1) here (name :: rest) p

variable {depth : Nat} {target : Text}

/-- Links may be deeper within links. -/
theorem Resolves.more {depth' : Nat} (resolves : Resolves t depth here names p)
    (enough : depth ≤ depth') : Resolves t depth' here names p := by
  induction resolves generalizing depth' with
  | done => exact .done
  | up _ ih => exact .up (ih enough)
  | plain dots notLink _ ih => exact .plain dots notLink (ih enough)
  | past dots node _ _ ih ih' =>
      obtain ⟨more, rfl⟩ : ∃ more, depth' = more + 1 := ⟨depth' - 1, by omega⟩
      exact .past dots node (ih (by omega)) (ih' enough)

/-- Behind a link, first its target is resolved and then the rest. -/
theorem Resolves.behind (resolves : Resolves t depth here (name :: rest) p) (dots : name ≠ "..")
    (node : t.node? (here ++ [name]) = some (.link target)) :
    ∃ left q, depth = left + 1 ∧
      Resolves t left (if (Path.ofText target).isAbsolute then [] else here)
        (Path.components target) q ∧
      Resolves t depth q rest p := by
  cases resolves with
  | up => exact absurd rfl dots
  | plain _ notLink => exact absurd node (notLink target)
  | past _ node' behind onward =>
      rw [node'] at node
      cases node
      exact ⟨_, _, rfl, behind, onward⟩

/-- **Names are resolved to one place**, however deep links may be. -/
theorem Resolves.unique {depth' : Nat} {q : Place} (first : Resolves t depth here names p)
    (second : Resolves t depth' here names q) : p = q := by
  induction first generalizing depth' q with
  | done =>
      cases second
      rfl
  | up _ ih =>
      cases second with
      | up onward => exact ih onward
      | plain dots => exact absurd rfl dots
      | past dots => exact absurd rfl dots
  | plain dots notLink _ ih =>
      cases second with
      | up => exact absurd rfl dots
      | plain _ _ onward => exact ih onward
      | past _ node => exact absurd node (notLink _)
  | past dots node _ _ ih ih' =>
      obtain ⟨left, q', rfl, behind, onward⟩ := second.behind dots node
      obtain rfl := ih behind
      exact ih' onward

/-- **Names that lead to a place are resolved to it**: no links are deeper within links than there
are links on the way. -/
theorem resolves_of_leads (leads : Leads t true links here names p)
    (components : ∀ c ∈ names, Path.IsComponent c) : Resolves t links here names p := by
  induction links using Nat.strong_induction_on generalizing here names p with
  | _ links fewer =>
      induction names generalizing here with
      | nil =>
          cases leads
          exact .done
      | cons name rest ih =>
          rw [List.forall_mem_cons] at components
          cases leads with
          | up onward => exact .up (ih onward components.2)
          | stay nowhere =>
              exact absurd nowhere (not_or.mpr ⟨components.1.ne_nil, components.1.ne_dot⟩)
          | down entry node onward =>
              refine .plain entry.ne_dots ?_ (ih onward components.2)
              rw [node]
              rintro target ⟨⟩
          | file entry node =>
              refine .plain entry.ne_dots ?_ .done
              rw [node]
              rintro target ⟨⟩
          | link _ _ stop => cases stop
          | @through links _ _ _ target _ entry node _ onward =>
              obtain ⟨q, first, second, -⟩ := onward.split
              have behind := fewer links (Nat.lt_succ_self links)
                (first.thinned (thinned_components target))
                fun c => Path.isComponent_of_mem_components
              exact .past entry.ne_dots node behind
                ((fewer links (Nat.lt_succ_self links) second components.2).more (Nat.le_succ _))

/-! ## Links that are being resolved -/

/-- Different links, which are being resolved. -/
structure Ongoing (t : FileTree) (active : List Place) : Prop where
  nodup : active.Nodup
  link : ∀ a ∈ active, ∃ target, t.node? a = some (.link target)

/-- **Links that are being resolved**, when links may be `depth` more deep: none of them is resolved
with so few. -/
structure Pending (t : FileTree) (depth : Nat) (active : List Place) : Prop
    extends Ongoing t active where
  costly : ∀ here name q, here ++ [name] ∈ active → ¬ Resolves t depth here [name] q

variable {active : List Place} {place : Place}

theorem ongoing_nil (t : FileTree) : Ongoing t [] := ⟨List.nodup_nil, by simp⟩

theorem Ongoing.cons (ongoing : Ongoing t active) (node : t.node? place = some (.link target))
    (new : place ∉ active) : Ongoing t (place :: active) :=
  ⟨List.nodup_cons.mpr ⟨new, ongoing.nodup⟩, List.forall_mem_cons.mpr ⟨⟨target, node⟩, ongoing.link⟩⟩

/-- There are not more links being resolved than the tree has. -/
theorem Ongoing.length_le_linkCount (ongoing : Ongoing t active) :
    active.length ≤ t.linkCount := by
  rw [linkCount, List.countP_eq_length_filter]
  refine (List.subperm_of_subset ongoing.nodup ?_).length_le.trans_eq (List.length_map Prod.fst)
  intro a member
  obtain ⟨target, node⟩ := ongoing.link a member
  have some_ : a ≠ [] := by
    rintro rfl
    rw [node?_nil] at node
    cases node
  exact List.mem_map.mpr ⟨_, List.mem_filter.mpr ⟨mem_nodes some_ node, rfl⟩, rfl⟩

/-- When one more link is being resolved, one less can come within it. -/
theorem Ongoing.exists_less {limit : Nat} (ongoing : Ongoing t (place :: active))
    (enough : t.linkCount ≤ limit + active.length) :
    ∃ less, limit = less + 1 ∧ t.linkCount ≤ less + (place :: active).length := by
  have deep := ongoing.length_le_linkCount
  rw [List.length_cons] at deep ⊢
  exact ⟨limit - 1, by omega, by omega⟩

theorem Pending.fewer {depth' : Nat} (pending : Pending t depth active) (fewer : depth' ≤ depth) :
    Pending t depth' active :=
  ⟨pending.toOngoing, fun here name q member resolves =>
    pending.costly here name q member (resolves.more fewer)⟩

/-- One more link is being resolved, along a target for which `depth` is the least that will do. -/
theorem Pending.cons (pending : Pending t depth active) (dots : name ≠ "..")
    (node : t.node? (here ++ [name]) = some (.link target)) (new : here ++ [name] ∉ active)
    (least : ∀ fewer < depth, ∀ q, ¬ Resolves t fewer
      (if (Path.ofText target).isAbsolute then [] else here) (Path.components target) q) :
    Pending t depth ((here ++ [name]) :: active) := by
  refine ⟨pending.toOngoing.cons node new, fun here' name' q member resolves => ?_⟩
  rcases List.mem_cons.mp member with same | older
  · obtain ⟨rfl, last⟩ := List.append_inj' same rfl
    obtain rfl := List.singleton_inj.mp last
    obtain ⟨left, q', rfl, behind, -⟩ := resolves.behind dots node
    exact least left (Nat.lt_succ_self left) q' behind
  · exact pending.costly here' name' q older resolves

/-- The least depth with which names are resolved. -/
theorem exists_least (resolves : Resolves t depth here names p) :
    ∃ least ≤ depth, Resolves t least here names p ∧
      ∀ fewer < least, ∀ q, ¬ Resolves t fewer here names q := by
  classical
  have some_ : ∃ n, ∃ q, Resolves t n here names q := ⟨depth, p, resolves⟩
  obtain ⟨q, first⟩ := Nat.find_spec some_
  obtain rfl := first.unique resolves
  exact ⟨Nat.find some_, Nat.find_min' some_ ⟨q, resolves⟩, first,
    fun fewer less q resolves => Nat.find_min some_ less ⟨q, resolves⟩⟩

/-! ## Steps of resolving -/

section Steps

variable {left : List Text}

theorem resolveFrom_up :
    t.resolveFrom depth active here ("..".toList :: rest) =
      t.resolveFrom depth active here.dropLast rest := by
  rw [resolveFrom, if_pos (by simp)]

/-- A name that stands for no link is taken as it is, also where nothing stands. -/
theorem resolveFrom_plain (dots : name ≠ "..")
    (notLink : ∀ target, t.node? (here ++ [name]) ≠ some (.link target)) :
    t.resolveFrom depth active here (name :: rest) =
      t.resolveFrom depth active (here ++ [name]) rest := by
  rw [resolveFrom]
  dsimp only
  rw [if_neg (by simpa using dots)]
  split
  · rename_i target node
    exact absurd node (notLink target)
  · rfl

/-- A link that is being resolved already is not resolved again. -/
theorem resolveFrom_again (dots : name ≠ "..")
    (node : t.node? (here ++ [name]) = some (.link target))
    (again : here ++ [name] ∈ active ∨ depth = 0) :
    t.resolveFrom depth active here (name :: rest) =
      { place := here ++ [name], left := some rest } := by
  rw [resolveFrom]
  dsimp only
  rw [if_neg (by simpa using dots), node]
  dsimp only
  split
  · rfl
  · rename_i new
    rw [List.contains_iff_mem] at new
    obtain rfl := again.resolve_left new
    rfl

/-- Behind a link resolving goes on from where its target is. -/
theorem resolveFrom_past (dots : name ≠ "..")
    (node : t.node? (here ++ [name]) = some (.link target))
    (new : here ++ [name] ∉ active)
    (behind : t.resolveFrom depth ((here ++ [name]) :: active)
      (if (Path.ofText target).isAbsolute then [] else here) (Path.components target) =
        { place := place }) :
    t.resolveFrom (depth + 1) active here (name :: rest) =
      t.resolveFrom (depth + 1) active place rest := by
  have behind' : t.resolveFrom depth ((here ++ [name]) :: active)
      (if (Path.ofText target).isAbsolute then [] else here) (Path.ofText target).parts =
        { place := place } := behind
  rw [resolveFrom]
  dsimp only
  rw [if_neg (by simpa using dots), node]
  simp only [List.contains_iff_mem, new, if_false, behind']

/-- When its target is resolved in part only, so is what follows. -/
theorem resolveFrom_lost (dots : name ≠ "..")
    (node : t.node? (here ++ [name]) = some (.link target))
    (new : here ++ [name] ∉ active)
    (behind : t.resolveFrom depth ((here ++ [name]) :: active)
      (if (Path.ofText target).isAbsolute then [] else here) (Path.components target) =
        { place := place, left := some left }) :
    t.resolveFrom (depth + 1) active here (name :: rest) =
      { place := place, left := some (left ++ rest) } := by
  have behind' : t.resolveFrom depth ((here ++ [name]) :: active)
      (if (Path.ofText target).isAbsolute then [] else here) (Path.ofText target).parts =
        { place := place, left := some left } := behind
  rw [resolveFrom]
  dsimp only
  rw [if_neg (by simpa using dots), node]
  simp only [List.contains_iff_mem, new, if_false, behind']

end Steps

/-! ## Resolving -/

/-- **What names are resolved to depends on the links**, and on nothing else in the tree. -/
theorem resolveFrom_congr {t' : FileTree} {active : List Place}
    (links : ∀ p target, t.node? p = some (.link target) ↔ t'.node? p = some (.link target)) :
    t'.resolveFrom depth active here names = t.resolveFrom depth active here names := by
  induction depth, active, here, names using resolveFrom.induct t with
  | case1 depth active here => rw [resolveFrom, resolveFrom]
  | case2 depth active here name rest dots ih =>
      obtain rfl := beq_iff_eq.mp dots
      rw [resolveFrom_up, resolveFrom_up, ih]
  | case3 depth active here name rest next dots target node met =>
      have again := Or.inl (b := depth = 0) (List.contains_iff_mem.mp met)
      rw [resolveFrom_again (by simpa using dots) node again,
        resolveFrom_again (by simpa using dots) ((links _ _).mp node) again]
  | case4 active here name rest next dots target node new =>
      rw [resolveFrom_again (by simpa using dots) node (.inr rfl),
        resolveFrom_again (by simpa using dots) ((links _ _).mp node) (.inr rfl)]
  | case5 active here name rest next dots target node new depth path start place behind ih ih' =>
      have new : here ++ [name] ∉ active := by simpa using new
      rw [resolveFrom_past (by simpa using dots) node new behind,
        resolveFrom_past (by simpa using dots) ((links _ _).mp node) new (ih.trans behind), ih']
  | case6 active here name rest next dots target node new depth path start place left behind ih =>
      have new : here ++ [name] ∉ active := by simpa using new
      rw [resolveFrom_lost (by simpa using dots) node new behind,
        resolveFrom_lost (by simpa using dots) ((links _ _).mp node) new (ih.trans behind)]
  | case7 depth active here name rest next dots notLink ih =>
      rw [resolveFrom_plain (by simpa using dots) notLink, resolveFrom_plain (by simpa using dots)
        fun target node => notLink target ((links _ _).mpr node), ih]

/-- **What resolves is resolved**, when no link on the way is being resolved already. -/
theorem resolveFrom_of_resolves {limit : Nat} (resolves : Resolves t depth here names p)
    (pending : Pending t depth active) (enough : t.linkCount ≤ limit + active.length) :
    t.resolveFrom limit active here names = { place := p } := by
  induction depth using Nat.strong_induction_on generalizing here names p limit active with
  | _ depth deeper =>
      induction names generalizing here with
      | nil =>
          cases resolves
          rw [resolveFrom]
      | cons name rest ih =>
          cases resolves with
          | up onward =>
              rw [resolveFrom_up]
              exact ih onward
          | plain dots notLink onward =>
              rw [resolveFrom_plain dots notLink]
              exact ih onward
          | past dots node behind onward =>
              have new : here ++ [name] ∉ active := fun member =>
                pending.costly here name _ member (.past dots node behind .done)
              obtain ⟨least, few, first, minimal⟩ := exists_least behind
              have inner := (pending.fewer (few.trans (Nat.le_succ _))).cons dots node new minimal
              obtain ⟨less, rfl, enough'⟩ := inner.toOngoing.exists_less enough
              rw [resolveFrom_past dots node new (deeper least (by omega) first inner enough')]
              exact ih onward

/-- The number of links in the tree is deep enough. -/
theorem resolveFrom_linkCount (resolves : Resolves t depth [] names p) :
    t.resolveFrom t.linkCount [] [] names = { place := p } :=
  resolveFrom_of_resolves resolves ⟨ongoing_nil t, by simp⟩ (Nat.le_refl _)

/-- A place that is arrived at is arrived at by its own names, and so is every place above it. -/
theorem locate_of_prefix {start : Place} (located : t.locate path = .ok p) (initial : start <+: p) :
    t.locate ⟨root, start⟩ = .ok start := by
  have leads := leads_of_locateFrom located
  have named : Named p := leads.named (by simp [Named])
  have grounded := leads.grounded (grounded_nil t)
  have above {d : Place} (d_ : d <+: p.dropLast) : t.locate ⟨root, d⟩ = .ok d :=
    locate_of_grounded (fun c member => named c (List.dropLast_subset _ (d_.subset member)))
      fun d' d'_ => grounded d' (d'_.trans d_)
  rcases List.eq_nil_or_concat p with rfl | ⟨d, name, rfl⟩
  · exact above (by simpa using initial)
  · rw [List.concat_eq_append] at *
    rw [List.dropLast_concat] at above grounded
    rcases List.prefix_concat_iff.mp initial with rfl | d_
    · obtain ⟨n, node, notLink⟩ := leads.exists_node (grounded_nil t)
      have entry : IsEntryName name := named name (by simp)
      have free : ∀ target, t.node? (d ++ [name]) ≠ some (.link target) := by
        rw [node]
        exact fun target same => notLink target (Option.some.inj same)
      rw [locate, locateFrom_concat (fun c member => named c (List.mem_append_left _ member))
        grounded entry free, node]
      rfl
    · exact above d_

/-- **The real place of a path is where it leads**, if it leads anywhere. -/
theorem realPath_of_locate_eq_ok (wellFormed : Path.WellFormed path)
    (located : t.locate path = .ok p) : t.realPath path = .ok ⟨1, p⟩ := by
  have resolved : t.resolved path = ⟨1, p⟩ := resolved_eq <|
    resolveFrom_linkCount (resolves_of_leads (leads_of_locateFrom located) wellFormed.parts)
  have again : t.locate ⟨1, p⟩ = .ok p := locate_of_prefix located List.prefix_rfl
  rw [realPath, resolved, again]

/-! ## Well-formed paths -/

theorem components_start (above : ∀ c ∈ here, Path.IsComponent c) {absolute : Bool} :
    ∀ c ∈ (if absolute then [] else here), Path.IsComponent c := by
  cases absolute with
  | true => simp
  | false => exact above

/-- Components are resolved to components. -/
theorem isComponent_of_resolveFrom (above : ∀ c ∈ here, Path.IsComponent c)
    (below : ∀ c ∈ names, Path.IsComponent c) :
    ∀ c ∈ (t.resolveFrom depth active here names).place ++
      (t.resolveFrom depth active here names).left.getD [], Path.IsComponent c := by
  induction depth, active, here, names using resolveFrom.induct t with
  | case1 depth active here =>
      rw [resolveFrom]
      simpa using above
  | case2 depth active here name rest dots ih =>
      obtain rfl := beq_iff_eq.mp dots
      rw [resolveFrom_up]
      rw [List.forall_mem_cons] at below
      exact ih (fun c inside => above c (List.dropLast_subset _ inside)) below.2
  | case3 depth active here name rest next dots target node met =>
      rw [resolveFrom_again (by simpa using dots) node (.inl (List.contains_iff_mem.mp met)),
        Option.getD_some, List.append_assoc]
      exact List.forall_mem_append.mpr ⟨above, below⟩
  | case4 active here name rest next dots target node new =>
      rw [resolveFrom_again (by simpa using dots) node (.inr rfl), Option.getD_some,
        List.append_assoc]
      exact List.forall_mem_append.mpr ⟨above, below⟩
  | case5 active here name rest next dots target node new depth path start place behind ih ih' =>
      rw [List.forall_mem_cons] at below
      rw [resolveFrom_past (by simpa using dots) node (by simpa using new) behind]
      have before := ih (components_start above) fun c => Path.isComponent_of_mem_components
      rw [behind] at before
      exact ih' (by simpa using before) below.2
  | case6 active here name rest next dots target node new depth path start place left behind ih =>
      rw [List.forall_mem_cons] at below
      rw [resolveFrom_lost (by simpa using dots) node (by simpa using new) behind,
        Option.getD_some, ← List.append_assoc]
      have before := ih (components_start above) fun c => Path.isComponent_of_mem_components
      rw [behind] at before
      exact List.forall_mem_append.mpr ⟨before, below.2⟩
  | case7 depth active here name rest next dots notLink ih =>
      rw [resolveFrom_plain (by simpa using dots) notLink]
      rw [List.forall_mem_cons] at below
      exact ih (List.forall_mem_append.mpr ⟨above, by simpa using below.1⟩) below.2

/-- **What a path is resolved to starts at the root and is made of components**, if the path
itself is. -/
theorem wellFormed_resolved (wellFormed : Path.WellFormed path) :
    (t.resolved path).root = 1 ∧ Path.WellFormed (t.resolved path) := by
  have parts : ∀ c ∈ (t.resolveFrom t.linkCount [] [] path.parts).place ++
      (t.resolveFrom t.linkCount [] [] path.parts).left.getD [], Path.IsComponent c :=
    isComponent_of_resolveFrom (by simp) wellFormed.parts
  rw [resolved]
  split
  · refine ⟨rfl, by simp [Path.normalize], fun c member => ?_⟩
    exact parts c (Path.mem_normalize rfl member).1
  · exact ⟨rfl, Nat.le_succ 1, parts⟩

/-- A real path is what the path is resolved to. -/
theorem eq_resolved_of_realPath {real : Path} (found : t.realPath path = .ok real) :
    real = t.resolved path := by
  rw [realPath] at found
  split at found
  · cases found
  · exact (Except.ok.inj found).symm

theorem wellFormed_realPath {real : Path} (wellFormed : Path.WellFormed path)
    (found : t.realPath path = .ok real) : real.root = 1 ∧ Path.WellFormed real :=
  eq_resolved_of_realPath found ▸ wellFormed_resolved wellFormed

end CodeAtlas.FileTree
