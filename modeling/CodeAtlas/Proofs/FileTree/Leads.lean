/-
# Proofs.FileTree.Leads -- where a path leads

`Leads` is the walk along a path as a relation: one constructor for each kind of step.  It holds
exactly when `locateFrom` arrives (`locateFrom_eq_ok_iff`).

A tree *keeps* another (`Keeps`) when whatever stands in the one stands in the other, files perhaps
with another content.  Every walk of the one is then a walk of the other (`Leads.mono`).  Two walks
join in a directory (`Leads.append`), and a walk that stops at a name which is not a link also
arrives there when links are followed (`Leads.follow_of_not_link`).

Two walks along the same names arrive at the same place (`Leads.unique`), and so do walks that
differ by names which lead nowhere (`Leads.thinned`).  A walk that stops at a link goes on behind
that link when links are followed (`Leads.behind`).
-/
import CodeAtlas.FileTree.Change

namespace CodeAtlas.FileTree

set_option autoImplicit false

/-- A name that an entry of a directory can have. -/
structure IsEntryName (name : Text) : Prop where
  ne_nil : name ≠ []
  ne_dot : name ≠ "."
  ne_dots : name ≠ ".."

/-- **Names lead from one place to another.** -/
inductive Leads (t : FileTree) (follow : Bool) : Nat → Place → List Text → Place → Prop
  | arrived {links : Nat} {here : Place} : Leads t follow links here [] here
  | up {links : Nat} {here p : Place} {rest : List Text}
      (onward : Leads t follow links here.dropLast rest p) :
      Leads t follow links here ("..".toList :: rest) p
  | stay {links : Nat} {here p : Place} {name : Text} {rest : List Text}
      (nowhere : name = [] ∨ name = ".") (onward : Leads t follow links here rest p) :
      Leads t follow links here (name :: rest) p
  | down {links : Nat} {here p : Place} {name : Text} {rest : List Text} (entry : IsEntryName name)
      (node : t.node? (here ++ [name]) = some .directory)
      (onward : Leads t follow links (here ++ [name]) rest p) :
      Leads t follow links here (name :: rest) p
  | file {links : Nat} {here : Place} {name : Text} {content : Bytes} (entry : IsEntryName name)
      (node : t.node? (here ++ [name]) = some (.file content)) :
      Leads t follow links here [name] (here ++ [name])
  | link {links : Nat} {here : Place} {name target : Text} (entry : IsEntryName name)
      (node : t.node? (here ++ [name]) = some (.link target)) (stop : follow = false) :
      Leads t follow links here [name] (here ++ [name])
  | through {links : Nat} {here p : Place} {name target : Text} {rest : List Text}
      (entry : IsEntryName name) (node : t.node? (here ++ [name]) = some (.link target))
      (go : rest = [] → follow = true)
      (onward : Leads t follow links (if (Path.ofText target).isAbsolute then [] else here)
        (Text.splitOn '/' target ++ rest) p) :
      Leads t follow (links + 1) here (name :: rest) p

variable {t t' : FileTree} {follow : Bool} {links : Nat} {here p : Place} {names rest : List Text}
  {name : Text}

theorem isEntryName_of_tests (dots : ¬ (name == "..".toList) = true)
    (solid : ¬ (List.isEmpty name || name == ".".toList) = true) : IsEntryName name := by
  rw [Bool.or_eq_true, not_or] at solid
  exact ⟨by simpa using solid.1, by simpa using solid.2, by simpa using dots⟩

theorem leads_of_locateFrom (found : t.locateFrom follow links here names = .ok p) :
    Leads t follow links here names p := by
  induction links, here, names using locateFrom.induct t follow with
  | case1 links here =>
      rw [locateFrom] at found
      cases found
      exact .arrived
  | case2 links here name rest dots ih =>
      rw [locateFrom, if_pos dots] at found
      rw [beq_iff_eq] at dots
      exact dots ▸ .up (ih found)
  | case3 links here name rest dots nowhere ih =>
      rw [locateFrom, if_neg dots, if_pos nowhere] at found
      refine .stay ?_ (ih found)
      simpa using nowhere
  | case4 links here name rest dots solid node =>
      rw [locateFrom, if_neg dots, if_neg solid, node] at found
      cases found
  | case5 links here name rest dots solid node ih =>
      rw [locateFrom, if_neg dots, if_neg solid, node] at found
      exact .down (isEntryName_of_tests dots solid) node (ih found)
  | case6 links here name rest dots solid content node last =>
      rw [locateFrom, if_neg dots, if_neg solid, node] at found
      rw [List.isEmpty_iff] at last
      subst last
      cases found
      exact .file (isEntryName_of_tests dots solid) node
  | case7 links here name rest dots solid content node more =>
      rw [locateFrom, if_neg dots, if_neg solid, node] at found
      simp [more] at found
  | case8 links here name rest dots solid target node stop =>
      rw [locateFrom, if_neg dots, if_neg solid, node] at found
      simp only [stop, if_true, Except.ok.injEq] at found
      rw [Bool.and_eq_true, List.isEmpty_iff, Bool.not_eq_true'] at stop
      obtain ⟨rfl, stop⟩ := stop
      exact found ▸ .link (isEntryName_of_tests dots solid) node stop
  | case9 here name rest dots solid target node go =>
      rw [locateFrom, if_neg dots, if_neg solid, node] at found
      simp [go] at found
  | case10 here name rest dots solid target node go links ih =>
      rw [locateFrom, if_neg dots, if_neg solid, node] at found
      simp only [go, Bool.false_eq_true, if_false] at found
      refine .through (isEntryName_of_tests dots solid) node (fun last => ?_) (ih found)
      simpa [last] using go

theorem locateFrom_of_leads (leads : Leads t follow links here names p) :
    t.locateFrom follow links here names = .ok p := by
  induction leads with
  | arrived => rw [locateFrom]
  | up _ ih => rw [locateFrom, if_pos (by simp), ih]
  | @stay links here p name rest nowhere onward ih =>
      have dots : ¬ (name == "..".toList) = true := by rcases nowhere with rfl | rfl <;> decide
      have here_ : (List.isEmpty name || name == ".".toList) = true := by simpa using nowhere
      rw [locateFrom, if_neg dots, if_pos here_, ih]
  | down entry node _ ih =>
      rw [locateFrom, if_neg (by simpa using entry.ne_dots),
        if_neg (by simpa using ⟨entry.ne_nil, entry.ne_dot⟩), node]
      exact ih
  | file entry node =>
      rw [locateFrom, if_neg (by simpa using entry.ne_dots),
        if_neg (by simpa using ⟨entry.ne_nil, entry.ne_dot⟩), node]
      rfl
  | link entry node stop =>
      rw [locateFrom, if_neg (by simpa using entry.ne_dots),
        if_neg (by simpa using ⟨entry.ne_nil, entry.ne_dot⟩), node]
      simp [stop]
  | @through links here p name target rest entry node go _ ih =>
      have go' : (rest.isEmpty && !follow) = false := by
        cases rest with
        | nil => simp [go rfl]
        | cons _ _ => rfl
      rw [locateFrom, if_neg (by simpa using entry.ne_dots),
        if_neg (by simpa using ⟨entry.ne_nil, entry.ne_dot⟩), node]
      simp only [go', Bool.false_eq_true, if_false]
      exact ih

/-- **The walk arrives where the names lead.** -/
theorem locateFrom_eq_ok_iff :
    t.locateFrom follow links here names = .ok p ↔ Leads t follow links here names p :=
  ⟨leads_of_locateFrom, locateFrom_of_leads⟩

/-! ## Other trees -/

/-- What stands in `t` stands in `t'`, only that files may have other contents. -/
def Keeps (t t' : FileTree) : Prop :=
  ∀ p n, t.node? p = some n → t'.node? p = some n ∨
    ∃ content content', n = .file content ∧ t'.node? p = some (.file content')

theorem Keeps.directory (keeps : Keeps t t') (node : t.node? p = some .directory) :
    t'.node? p = some .directory := by
  rcases keeps p _ node with same | ⟨_, _, other, _⟩
  · exact same
  · cases other

theorem Keeps.link (keeps : Keeps t t') {target : Text} (node : t.node? p = some (.link target)) :
    t'.node? p = some (.link target) := by
  rcases keeps p _ node with same | ⟨_, _, other, _⟩
  · exact same
  · cases other

theorem Keeps.file (keeps : Keeps t t') {content : Bytes}
    (node : t.node? p = some (.file content)) :
    ∃ content', t'.node? p = some (.file content') := by
  rcases keeps p _ node with same | ⟨_, content', _, other⟩
  · exact ⟨content, same⟩
  · exact ⟨content', other⟩

theorem Keeps.refl (t : FileTree) : Keeps t t := fun _ _ node => .inl node

theorem Keeps.trans {t'' : FileTree} (first : Keeps t t') (second : Keeps t' t'') :
    Keeps t t'' := by
  intro p n node
  rcases first p n node with same | ⟨content, content', rfl, other⟩
  · exact second p n same
  · obtain ⟨content'', last⟩ := second.file other
    exact .inr ⟨content, content'', rfl, last⟩

/-- **A walk stays one when nothing is taken away.** -/
theorem Leads.mono (keeps : Keeps t t') (leads : Leads t follow links here names p) :
    Leads t' follow links here names p := by
  induction leads with
  | arrived => exact .arrived
  | up _ ih => exact .up ih
  | stay nowhere _ ih => exact .stay nowhere ih
  | down entry node _ ih => exact .down entry (keeps.directory node) ih
  | file entry node =>
      obtain ⟨content', node'⟩ := keeps.file node
      exact .file entry node'
  | link entry node stop => exact .link entry (keeps.link node) stop
  | through entry node go _ ih => exact .through entry (keeps.link node) go ih

/-! ## Parts of a walk -/

/-- Names that lead to a directory, and names that lead on from it. -/
theorem Leads.append {d : Place} (first : Leads t true links here names d)
    (node : t.node? d = some .directory) (some_ : rest ≠ [])
    (second : ∀ links', Leads t follow links' d rest p) :
    Leads t follow links here (names ++ rest) p := by
  induction first with
  | arrived => exact second _
  | up _ ih => exact .up (ih node second)
  | stay nowhere _ ih => exact .stay nowhere (ih node second)
  | down entry node' _ ih => exact .down entry node' (ih node second)
  | file _ node' =>
      rw [node] at node'
      cases node'
  | link _ _ stop => cases stop
  | through entry node' _ _ ih =>
      refine .through entry node' (fun empty => ?_) ?_
      · exact absurd (List.append_eq_nil_iff.mp empty).2 some_
      · rw [List.append_eq, ← List.append_assoc]
        exact ih node second

/-- A walk that stops at no link arrives there when links are followed, too. -/
theorem Leads.follow_of_not_link (leads : Leads t false links here names p)
    (notLink : ∀ target, t.node? p ≠ some (.link target)) : Leads t true links here names p := by
  induction leads with
  | arrived => exact .arrived
  | up _ ih => exact .up (ih notLink)
  | stay nowhere _ ih => exact .stay nowhere (ih notLink)
  | down entry node _ ih => exact .down entry node (ih notLink)
  | file entry node => exact .file entry node
  | link _ node _ => exact absurd node (notLink _)
  | through entry node _ _ ih => exact .through entry node (fun _ => rfl) (ih notLink)

/-! ## Walks along the same names -/

/-- More links may be followed. -/
theorem Leads.more {links' : Nat} (leads : Leads t follow links here names p)
    (enough : links ≤ links') : Leads t follow links' here names p := by
  induction leads generalizing links' with
  | arrived => exact .arrived
  | up _ ih => exact .up (ih enough)
  | stay nowhere _ ih => exact .stay nowhere (ih enough)
  | down entry node _ ih => exact .down entry node (ih enough)
  | file entry node => exact .file entry node
  | link entry node stop => exact .link entry node stop
  | through entry node go _ ih =>
      obtain ⟨more, rfl⟩ : ∃ more, links' = more + 1 := ⟨links' - 1, by omega⟩
      exact .through entry node go (ih (by omega))

/-- **Names lead to one place**, however many links may be followed. -/
theorem Leads.unique {links' : Nat} {q : Place} (first : Leads t follow links here names p)
    (second : Leads t follow links' here names q) : p = q := by
  have first' := locateFrom_of_leads (first.more (Nat.le_max_left links links'))
  rw [locateFrom_of_leads (second.more (Nat.le_max_right links links'))] at first'
  exact (Except.ok.inj first').symm

/-- Names without some of those that lead nowhere. -/
inductive Thinned : List Text → List Text → Prop
  | nil : Thinned [] []
  | keep {name : Text} {names names' : List Text} (rest : Thinned names names') :
      Thinned (name :: names) (name :: names')
  | leave {name : Text} {names names' : List Text} (nowhere : name = [] ∨ name = ".")
      (rest : Thinned names names') : Thinned (name :: names) names'

theorem Thinned.append_left (names : List Text) {rest rest' : List Text}
    (thinned : Thinned rest rest') : Thinned (names ++ rest) (names ++ rest') := by
  induction names with
  | nil => exact thinned
  | cons _ _ ih => exact .keep ih

theorem thinned_components (target : Text) :
    Thinned (Text.splitOn '/' target) (Path.components target) := by
  rw [Path.components]
  induction Text.splitOn '/' target with
  | nil => exact .nil
  | cons name names ih =>
      rw [List.filter_cons]
      split
      · exact .keep ih
      · rename_i nowhere
        by_cases empty : name = []
        · exact .leave (.inl empty) ih
        · exact .leave (.inr (by simpa [empty] using nowhere)) ih

/-- **Names that lead nowhere may be left out.** -/
theorem Leads.thinned {names' : List Text} (leads : Leads t true links here names p)
    (thinned : Thinned names names') : Leads t true links here names' p := by
  induction leads generalizing names' with
  | arrived =>
      cases thinned
      exact .arrived
  | up _ ih =>
      cases thinned with
      | keep rest => exact .up (ih rest)
      | leave nowhere _ => rcases nowhere with dots | dots <;> exact absurd dots (by decide)
  | stay nowhere _ ih =>
      cases thinned with
      | keep rest => exact .stay nowhere (ih rest)
      | leave _ rest => exact ih rest
  | down entry node _ ih =>
      cases thinned with
      | keep rest => exact .down entry node (ih rest)
      | leave nowhere _ => exact absurd nowhere (not_or.mpr ⟨entry.ne_nil, entry.ne_dot⟩)
  | file entry node =>
      cases thinned with
      | keep rest =>
          cases rest
          exact .file entry node
      | leave nowhere _ => exact absurd nowhere (not_or.mpr ⟨entry.ne_nil, entry.ne_dot⟩)
  | link _ _ stop => cases stop
  | through entry node _ _ ih =>
      cases thinned with
      | keep rest => exact .through entry node (fun _ => rfl) (ih (rest.append_left _))
      | leave nowhere _ => exact absurd nowhere (not_or.mpr ⟨entry.ne_nil, entry.ne_dot⟩)

/-! ## Behind a link -/

/-- All the directories on the way down to a place are there. -/
def Grounded (t : FileTree) (p : Place) : Prop := ∀ d, d <+: p → t.node? d = some .directory

theorem Grounded.self (grounded : Grounded t p) : t.node? p = some .directory :=
  grounded p List.prefix_rfl

theorem Grounded.dropLast (grounded : Grounded t p) : Grounded t p.dropLast :=
  fun d start => grounded d (start.trans (List.dropLast_prefix p))

theorem grounded_nil (t : FileTree) : Grounded t [] := by
  intro d start
  rw [List.prefix_nil.mp start]
  rfl

theorem Grounded.concat (grounded : Grounded t p)
    (node : t.node? (p ++ [name]) = some .directory) : Grounded t (p ++ [name]) := by
  intro d start
  rcases List.prefix_concat_iff.mp start with rfl | above
  · exact node
  · exact grounded d above

theorem Grounded.start (grounded : Grounded t p) (absolute : Bool) :
    Grounded t (if absolute then [] else p) := by
  cases absolute with
  | true => exact grounded_nil t
  | false => exact grounded

/-- Behind the link at the end of a walk, the same names lead on. -/
theorem Leads.behind {links' : Nat} {target : Text} {q : Place}
    (stops : Leads t false links here names q) (grounded : Grounded t here)
    (node : t.node? q = some (.link target)) (leads : Leads t true links' here names p) :
    ∃ links'', Leads t true links'' (if (Path.ofText target).isAbsolute then [] else q.dropLast)
      (Path.ofText target).parts p := by
  induction stops generalizing links' with
  | arrived =>
      rw [grounded.self] at node
      cases node
  | up _ ih =>
      have onward := locateFrom_of_leads leads
      rw [locateFrom, if_pos (by simp)] at onward
      exact ih grounded.dropLast node (leads_of_locateFrom onward)
  | @stay links here q name rest nowhere _ ih =>
      have onward := locateFrom_of_leads leads
      have dots : ¬ (name == "..".toList) = true := by rcases nowhere with rfl | rfl <;> decide
      rw [locateFrom, if_neg dots, if_pos (by simpa using nowhere)] at onward
      exact ih grounded node (leads_of_locateFrom onward)
  | down entry directory _ ih =>
      have onward := locateFrom_of_leads leads
      rw [locateFrom, if_neg (by simpa using entry.ne_dots),
        if_neg (by simpa using ⟨entry.ne_nil, entry.ne_dot⟩), directory] at onward
      exact ih (grounded.concat directory) node (leads_of_locateFrom onward)
  | file entry file =>
      rw [file] at node
      cases node
  | link entry link _ =>
      rw [link] at node
      cases node
      have onward := locateFrom_of_leads leads
      rw [locateFrom, if_neg (by simpa using entry.ne_dots),
        if_neg (by simpa using ⟨entry.ne_nil, entry.ne_dot⟩), link] at onward
      cases links' with
      | zero => simp at onward
      | succ links' =>
          simp only [Bool.not_true, Bool.and_false, Bool.false_eq_true, if_false,
            List.append_nil] at onward
          rw [List.dropLast_concat]
          exact ⟨links', (leads_of_locateFrom onward).thinned (thinned_components target)⟩
  | @through links here q name target' rest entry link _ _ ih =>
      have onward := locateFrom_of_leads leads
      rw [locateFrom, if_neg (by simpa using entry.ne_dots),
        if_neg (by simpa using ⟨entry.ne_nil, entry.ne_dot⟩), link] at onward
      cases links' with
      | zero => simp at onward
      | succ links' =>
          simp only [Bool.not_true, Bool.and_false, Bool.false_eq_true, if_false] at onward
          exact ih (grounded.start _) node (leads_of_locateFrom onward)

/-- Above the place at the end of a walk there are only directories. -/
theorem Leads.grounded {q : Place} (leads : Leads t follow links here names q)
    (grounded : Grounded t here) : Grounded t q.dropLast := by
  induction leads with
  | arrived => exact grounded.dropLast
  | up _ ih => exact ih grounded.dropLast
  | stay _ _ ih => exact ih grounded
  | down _ directory _ ih => exact ih (grounded.concat directory)
  | file => exact List.dropLast_concat ▸ grounded
  | link => exact List.dropLast_concat ▸ grounded
  | through _ _ _ _ ih => exact ih (grounded.start _)

end CodeAtlas.FileTree
