/-
# Proofs.FileTree.Write -- a file that has been written

Putting a node at a place changes what stands there and nothing else (`node?_put`).

`WritesTo` is the place a file is written to as a relation: one constructor for a file that is
there, one for a link at the end of the path, one for a new name in a directory.  Such a place is
free (`WritesTo.isFree`): a file stands there or nothing, so the tree is kept (`Keeps`) and every
path still leads where it led.  The path of the file itself leads to the place that was written, if
it leads anywhere at all (`WritesTo.eq_of_leads`): links at its end are followed one by one for
writing, but count with all others for reading.

A script stops at its first fault (`perform_bind_eq`), so a script that ends well is a chain of
operations that do (`perform_bind`, `perform_change`).
-/
import CodeAtlas.Proofs.FileTree.Leads
import CodeAtlas.Proofs.Run
import CodeAtlas.Proofs.Text.Utf8

namespace CodeAtlas.FileTree

set_option autoImplicit false

variable {t t' : FileTree} {p q : Place} {n : FileNode}

/-! ## Single places -/

theorem node?_nil (t : FileTree) : t.node? [] = some .directory := rfl

theorem node?_of_ne_nil (t : FileTree) (some_ : p ≠ []) : t.node? p = t.nodes.lookup p := by
  rw [node?, if_neg (by simpa using some_)]

theorem mem_nodes (some_ : p ≠ []) (node : t.node? p = some n) : (p, n) ∈ t.nodes := by
  rw [node?_of_ne_nil _ some_] at node
  obtain ⟨before, after, nodes, -⟩ := List.lookup_eq_some_iff.mp node
  simp [nodes]

theorem lookup_replace (nodes : List (Place × FileNode)) (p q : Place) (n : FileNode) :
    (nodes.map fun old => if old.1 == q then (q, n) else old).lookup p =
      if p = q then (if nodes.any (·.1 == q) then some n else none) else nodes.lookup p := by
  induction nodes with
  | nil => simp
  | cons old nodes ih =>
      obtain ⟨r, m⟩ := old
      simp only [List.map_cons, List.any_cons]
      by_cases here : r = q
      · subst here
        by_cases same : p = r
        · subst same
          simp only [beq_self_eq_true, Bool.true_or, if_true, List.lookup_cons]
        · simp only [beq_self_eq_true, if_true, List.lookup_cons, beq_eq_false_iff_ne.mpr same, ih,
            same, if_false]
      · have other : (r == q) = false := beq_eq_false_iff_ne.mpr here
        by_cases same : p = q
        · subst same
          have other' : (p == r) = false := beq_eq_false_iff_ne.mpr (Ne.symm here)
          simp only [other, Bool.false_eq_true, if_false, List.lookup_cons, other', ih,
            Bool.false_or]
        · simp only [other, Bool.false_eq_true, if_false, List.lookup_cons, ih, same]

theorem lookup_eq_none {nodes : List (Place × FileNode)} (absent : nodes.any (·.1 == p) = false) :
    nodes.lookup p = none := by
  rw [List.lookup_eq_none_iff]
  intro e member
  have other := List.any_eq_false.mp absent e member
  rw [bne_iff_ne]
  rintro rfl
  exact other (beq_self_eq_true _)

/-- **Putting a node changes one place.** -/
theorem node?_put (t : FileTree) (some_ : q ≠ []) (n : FileNode) (p : Place) :
    (t.put q n).node? p = if p = q then some n else t.node? p := by
  by_cases empty : p = []
  · subst empty
    rw [if_neg (Ne.symm some_), node?_nil, node?_nil]
  · rw [node?_of_ne_nil _ empty, node?_of_ne_nil _ empty, put]
    split
    · rename_i known
      rw [lookup_replace, known]
      rfl
    · rename_i unknown
      rw [Bool.not_eq_true] at unknown
      rw [List.lookup_append]
      by_cases same : p = q
      · subst same
        simp [lookup_eq_none unknown]
      · simp [same, List.lookup_cons, beq_eq_false_iff_ne.mpr same]

theorem node?_put_self (t : FileTree) (some_ : q ≠ []) (n : FileNode) :
    (t.put q n).node? q = some n := by rw [node?_put t some_, if_pos rfl]

theorem node?_put_of_ne (t : FileTree) (some_ : q ≠ []) (n : FileNode) (other : p ≠ q) :
    (t.put q n).node? p = t.node? p := by rw [node?_put t some_, if_neg other]

/-- A place where a file may be written: a file stands there, or nothing. -/
structure IsFree (t : FileTree) (p : Place) : Prop where
  ne_nil : p ≠ []
  node : t.node? p = none ∨ ∃ content, t.node? p = some (.file content)

theorem isFree_of_file {content : Bytes} (node : t.node? p = some (.file content)) :
    IsFree t p := by
  refine ⟨?_, .inr ⟨content, node⟩⟩
  rintro rfl
  rw [node?_nil] at node
  cases node

/-- **Writing where one may keeps the tree.** -/
theorem keeps_put (free : IsFree t q) (content : Bytes) : Keeps t (t.put q (.file content)) := by
  intro p n node
  by_cases same : p = q
  · subst same
    rcases free.node with nothing | ⟨old, file⟩
    · rw [nothing] at node
      cases node
    · rw [file] at node
      cases node
      exact .inr ⟨old, content, rfl, node?_put_self t free.ne_nil _⟩
  · exact .inl (by rw [node?_put_of_ne t free.ne_nil _ same, node])

/-! ## Where a file is written -/

/-- Below a directory that names lead to, one more name finds what stands there. -/
theorem leads_concat {follow : Bool} {links : Nat} {here d : Place} {names : List Text}
    {name : Text}
    (first : Leads t true links here names d) (directory : t.node? d = some .directory)
    (entry : IsEntryName name) (node : t.node? (d ++ [name]) = some n)
    (notLink : follow = true → ∀ target, n ≠ .link target) :
    Leads t follow links here (names ++ [name]) (d ++ [name]) := by
  refine first.append directory (by simp) fun links' => ?_
  cases n with
  | file content => exact .file entry node
  | directory => exact .down entry node .arrived
  | link target =>
      cases follow with
      | false => exact .link entry node rfl
      | true => exact absurd rfl (notLink rfl target)

/-- A name that is found nowhere is free in the directory before it. -/
theorem node?_of_absent {links : Nat} {here d : Place} {names : List Text} {name : Text}
    {missing : Text}
    (absent : t.locateFrom false links here (names ++ [name]) = .error (.absent missing))
    (first : t.locateFrom true links here names = .ok d) (directory : t.node? d = some .directory)
    (dots : name ≠ "..") : IsEntryName name ∧ t.node? (d ++ [name]) = none := by
  rw [locateFrom_eq_ok_iff] at first
  have found : ∀ {p}, ¬ Leads t false links here (names ++ [name]) p := fun leads => by
    rw [locateFrom_of_leads leads] at absent
    cases absent
  have entry : IsEntryName name := by
    by_contra other
    have nowhere : name = [] ∨ name = "." := by
      by_contra solid
      rw [not_or] at solid
      exact other ⟨solid.1, solid.2, dots⟩
    exact found (first.append directory (by simp) fun _ => .stay nowhere .arrived)
  refine ⟨entry, ?_⟩
  cases node : t.node? (d ++ [name]) with
  | none => rfl
  | some n => exact absurd (leads_concat first directory entry node (by simp)) found

/-- **A file is written where the names lead**: to the file they stop at, to where the link they
stop at leads, or to the place they name in a directory. -/
inductive WritesTo (t : FileTree) : Nat → Place → List Text → Place → Prop
  | file {links : Nat} {here p : Place} {names : List Text} {content : Bytes}
      (stops : Leads t false maxLinks here names p) (node : t.node? p = some (.file content)) :
      WritesTo t links here names p
  | through {links : Nat} {here q p : Place} {names : List Text} {target : Text}
      (stops : Leads t false maxLinks here names q) (node : t.node? q = some (.link target))
      (onward : WritesTo t links (if (Path.ofText target).isAbsolute then [] else q.dropLast)
        (Path.ofText target).parts p) :
      WritesTo t (links + 1) here names p
  | new {links : Nat} {here d : Place} {names : List Text} {name : Text}
      (first : Leads t true maxLinks here names d) (directory : t.node? d = some .directory)
      (entry : IsEntryName name) (free : t.node? (d ++ [name]) = none) :
      WritesTo t links here (names ++ [name]) (d ++ [name])

theorem writesTo_of_placeToWrite {links : Nat} {here : Place} {names : List Text} :
    t.placeToWrite links here names = .ok p → WritesTo t links here names p := by
  fun_induction placeToWrite t links here names with
  | case2 here names q located target node links path ih =>
      exact fun found => .through (leads_of_locateFrom located) node (ih found)
  | case3 links here names q located content node =>
      rintro ⟨⟩
      exact .file (leads_of_locateFrom located) node
  | case6 links here names missing absent directory name last first dots here_ =>
      rintro ⟨⟩
      rw [beq_iff_eq] at here_
      have whole : names.dropLast ++ [name] = names := List.dropLast_append_getLast? name last
      rw [← whole] at absent ⊢
      obtain ⟨entry, free⟩ := node?_of_absent absent first here_ (by simpa using dots)
      exact .new (leads_of_locateFrom first) here_ entry free
  | _ => nofun

/-- A place to write to is free. -/
theorem WritesTo.isFree {links : Nat} {here : Place} {names : List Text}
    (writes : WritesTo t links here names p) : IsFree t p := by
  induction writes with
  | file _ node => exact isFree_of_file node
  | through _ _ _ ih => exact ih
  | new _ _ _ free => exact ⟨by simp, .inl free⟩

/-! ## Reading what has been written -/

/-- **A path that leads anywhere after a write leads to the place that was written.**  The tree may
have changed since, as long as it keeps what was there. -/
theorem WritesTo.eq_of_leads {links links' : Nat} {here place : Place} {names : List Text}
    {content : Bytes} (grounded : Grounded t here) (writes : WritesTo t links here names place)
    (keeps : Keeps t t') (written : t'.node? place = some (.file content))
    (leads : Leads t' true links' here names p) : p = place := by
  induction writes generalizing links' with
  | file stops _ =>
      refine leads.unique ((stops.mono keeps).follow_of_not_link ?_)
      rw [written]
      rintro target ⟨⟩
  | @through links here q place names target stops node _ ih =>
      have grounded' : Grounded t' here := fun d start => keeps.directory (grounded d start)
      obtain ⟨links'', onward⟩ := (stops.mono keeps).behind grounded' (keeps.link node) leads
      refine ih ?_ written onward
      split
      · exact grounded_nil t
      · exact stops.grounded grounded
  | new first directory entry _ =>
      refine leads.unique
        (leads_concat (first.mono keeps) (keeps.directory directory) entry written ?_)
      rintro - target ⟨⟩

/-- **What a write does**: it puts the file at a free place, and the path leads to no other place
from then on. -/
structure Written (t : FileTree) (path : Path) (content : Bytes) (t' : FileTree) (place : Place) :
    Prop where
  found : t.placeToWrite maxLinks [] path.parts = .ok place
  free : IsFree t place
  tree : t' = t.put place (.file content)

variable {path : Path} {content : Bytes} {place : Place}

theorem exists_written (written : t.write path content = .ok t') :
    ∃ place, Written t path content t' place := by
  obtain ⟨place, found, rfl⟩ := Run.map_eq_ok_iff.mp written
  exact ⟨place, found, (writesTo_of_placeToWrite found).isFree, rfl⟩

theorem Written.keeps (written : Written t path content t' place) : Keeps t t' := by
  rw [written.tree]
  exact keeps_put written.free content

theorem Written.node (written : Written t path content t' place) :
    t'.node? place = some (.file content) := by
  rw [written.tree, node?_put_self t written.free.ne_nil]

theorem Written.eq_of_locate {t'' : FileTree} (written : Written t path content t' place)
    (keeps : Keeps t' t'') (located : t''.locate path = .ok p) : p = place := by
  obtain ⟨content', node⟩ := keeps.file written.node
  exact (writesTo_of_placeToWrite written.found).eq_of_leads (grounded_nil t)
    (written.keeps.trans keeps) node (leads_of_locateFrom located)

theorem read_of_locate (located : t.locate path = .ok p) (node : t.node? p = some (.file content)) :
    t.read path = .ok content := by
  rw [FileTree.read, located]
  dsimp only
  rw [node]

/-- What keeps a file from being read is not its text. -/
theorem read_ne_undecodable : t.read path ≠ .error .undecodable := by
  intro stopped
  rw [FileTree.read] at stopped
  split at stopped
  · rename_i miss _
    cases miss <;> cases stopped
  · split at stopped <;> cases stopped

/-- A file that holds the bytes of a text is read as that text. -/
theorem readText_of_read {text : Text} (read : t.read path = .ok (Text.encode text)) :
    t.readText path = .ok (Text.withLineFeeds text) := by
  rw [readText, read, Run.ok_bind, Text.decode?_encode]
  rfl

/-! ## Scripts -/

namespace Script

variable {α β : Type}

/-- A script goes on where its first part has ended well. -/
theorem perform_bind {script : Script α} {next : α → Script β} {b : β} :
    (script >>= next).perform t = (.ok b, t') ↔
      ∃ a s, script.perform t = (.ok a, s) ∧ (next a).perform s = (.ok b, t') :=
  Run.run_bind_eq_ok_iff

theorem perform_pure {a b : α} :
    (pure a : Script α).perform t = (.ok b, t') ↔ a = b ∧ t' = t :=
  Run.run_pure_eq_ok_iff

/-- A script goes on with the tree its first part has left behind. -/
theorem perform_bind_eq {script : Script α} {next : α → Script β} :
    (script >>= next).perform t =
      match script.perform t with
      | (.ok a, s) => (next a).perform s
      | (.error f, s) => (.error f, s) := by
  refine Run.run_bind.trans ?_
  rw [perform]
  rcases script.run.run t with ⟨_ | _, _⟩ <;> rfl

theorem perform_get : (get : Script FileTree).perform t = (.ok t, t) := rfl

theorem perform_set : (set t' : Script PUnit).perform t = (.ok (), t') := rfl

theorem perform_ask_eq {question : FileTree → Except Fault α} :
    (ask question).perform t = (question t, t) := by
  change (ask.liftExcept (question t)).perform t = _
  cases question t with
  | ok a => rfl
  | error f => rfl

theorem perform_ask {question : FileTree → Except Fault α} {a : α} :
    (ask question).perform t = (.ok a, t') ↔ question t = .ok a ∧ t' = t := by
  rw [perform_ask_eq, Prod.mk.injEq, eq_comm (a := t)]

theorem perform_change_eq {operation : FileTree → Except Fault FileTree} :
    (change operation).perform t =
      match operation t with
      | .ok t' => (.ok (), t')
      | .error f => (.error f, t) := by
  rw [change, perform_bind_eq, perform_ask_eq]
  cases operation t with
  | ok t' => rfl
  | error f => rfl

theorem perform_change {operation : FileTree → Except Fault FileTree} {done : PUnit} :
    (change operation).perform t = (.ok done, t') ↔ operation t = .ok t' := by
  rw [perform_change_eq]
  cases operation t with
  | ok s => simp
  | error f => simp

end Script

end CodeAtlas.FileTree
