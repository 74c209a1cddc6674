/-
# Proofs.Workspace.Order -- the order of a walk

What one entry of a directory adds to a walk has one of three causes (`entryFiles_cases`), and there
are three ways to go on from it (`entryFiles_ways`).  All that is added is below that entry, and the
entries are looked at in ascending order, so the files of a walk are in depth-first order of their
names (`pairwise_filesFrom`).  In particular no path is listed twice, in whatever tree, with links or
without (`nodup_files`).
-/
import CodeAtlas.Proofs.Workspace.Walk

namespace CodeAtlas.Workspace

set_option autoImplicit false

variable {passes : Path → Except Fault Bool} {t : FileTree} {f : Filter} {root current : Path}
  {name : Text} {l fs : List Path} {depth : Nat}

/-! ## One entry -/

/-- **What one entry of a directory adds**: nothing, what is found in it, or itself. -/
theorem entryFiles_cases {deeper : Path → Except Fault (List Path)}
    (found : entryFiles passes t f root deeper current name = .ok l) :
    l = [] ∨ passes (current.child name) = .ok false ∧
      (t.isDirectory (current.child name) = true ∧ deeper (current.child name) = .ok l ∨
        t.isFile (current.child name) = true ∧ l = [current.child name]) := by
  rw [entryFiles] at found
  obtain ⟨out, leads, rest⟩ := Run.bind_eq_ok_iff.mp found
  cases out with
  | true =>
      cases rest
      exact .inl rfl
  | false =>
      rw [if_neg (by decide)] at rest
      split at rest
      · rename_i directory
        split at rest
        · cases rest
          exact .inl rfl
        · exact .inr ⟨leads, .inl ⟨directory, rest⟩⟩
      · split at rest
        · rename_i file
          rw [Bool.and_eq_true] at file
          cases rest
          exact .inr ⟨leads, .inr ⟨file.1, rfl⟩⟩
        · cases rest
          exact .inl rfl

/-- **The walk goes from a directory into one of its entries.** -/
structure Enters (passes : Path → Except Fault Bool) (t : FileTree) (f : Filter) (root dir : Path)
    (name : Text) : Prop where
  stays : passes (dir.child name) = .ok false
  directory : t.isDirectory (dir.child name) = true
  kept : f.skips name = false
  wanted : isIgnored f.rules ((root.below (dir.child name)).toText ++ ['/']) = false

/-- **Where the walk goes on from an entry**: it is stopped by the look at it, it goes into the
entry, or it does not and is never stopped. -/
theorem entryFiles_ways (passes : Path → Except Fault Bool) (t : FileTree) (f : Filter)
    (root current : Path) (name : Text) :
    (∃ fault, passes (current.child name) = .error fault ∧
      ∀ deeper, entryFiles passes t f root deeper current name = .error fault) ∨
    (Enters passes t f root current name ∧
      ∀ deeper, entryFiles passes t f root deeper current name = deeper (current.child name)) ∨
    ¬ Enters passes t f root current name ∧ (∃ out, passes (current.child name) = .ok out) ∧
      ∃ l, ∀ deeper, entryFiles passes t f root deeper current name = .ok l := by
  by_cases enters : Enters passes t f root current name
  · refine .inr (.inl ⟨enters, fun deeper => ?_⟩)
    simp only [entryFiles, enters.stays, Run.ok_bind, enters.directory, enters.kept, enters.wanted,
      Bool.or_self, Bool.false_eq_true, if_false, if_true]
  cases leads : passes (current.child name) with
  | error fault => exact .inl ⟨fault, rfl, fun deeper => by rw [entryFiles, leads]; rfl⟩
  | ok out =>
      refine .inr (.inr ⟨enters, ⟨out, rfl⟩, ?_⟩)
      simp only [entryFiles, leads, Run.ok_bind]
      split
      · exact ⟨[], fun _ => rfl⟩
      rename_i stays
      split
      · rename_i directory
        split
        · exact ⟨[], fun _ => rfl⟩
        · rename_i entered
          rw [Bool.not_eq_true] at stays
          rw [Bool.not_eq_true, Bool.or_eq_false_iff] at entered
          exact absurd ⟨stays ▸ leads, directory, entered.1, entered.2⟩ enters
      · split
        · exact ⟨_, fun _ => rfl⟩
        · exact ⟨[], fun _ => rfl⟩

/-- A file that does not lead out and is not ignored is listed. -/
theorem entryFiles_of_isFile {deeper : Path → Except Fault (List Path)}
    (stays : passes (current.child name) = .ok false)
    (noDirectory : t.isDirectory (current.child name) = false)
    (isFile : t.isFile (current.child name) = true)
    (wanted : isIgnored f.rules (root.below (current.child name)).toText = false) :
    entryFiles passes t f root deeper current name = .ok [current.child name] := by
  simp only [entryFiles, stays, Run.ok_bind, noDirectory, isFile, wanted, Bool.not_false,
    Bool.and_self, Bool.false_eq_true, if_true, if_false]
  rfl

/-- The names in a directory are in strictly ascending order. -/
theorem pairwise_names (t : FileTree) (p : Path) : (t.names p).Pairwise (· < ·) := by
  rw [FileTree.names]
  split
  · split
    · exact Text.pairwise_sort (Text.nodup_distinct _)
    · exact .nil
  · exact .nil

/-! ## All entries -/

/-- The path is below an entry of a directory, or is that entry. -/
def IsBelow (current : Path) (name : Text) (file : Path) : Prop :=
  ∃ rest, file = ⟨current.root, current.parts ++ name :: rest⟩

/-- What is below an earlier entry comes before what is below a later one. -/
theorem parts_lt_of_isBelow {name' : Text} {file file' : Path} (before : name < name')
    (below : IsBelow current name file) (below' : IsBelow current name' file') :
    file.parts < file'.parts := by
  obtain ⟨rest, rfl⟩ := below
  obtain ⟨rest', rfl⟩ := below'
  exact List.append_left_lt (List.cons_lt_cons_iff.mpr (.inl before))

theorem pairwise_flatten {α β : Type} {R : β → β → Prop} {S : α → α → Prop} {Q : α → β → Prop}
    {names : List α} {lists : List (List β)}
    (each : List.Forall₂ (fun a l => l.Pairwise R ∧ ∀ b ∈ l, Q a b) names lists)
    (ascending : names.Pairwise S) (apart : ∀ a a' b b', S a a' → Q a b → Q a' b' → R b b') :
    lists.flatten.Pairwise R ∧ ∀ b ∈ lists.flatten, ∃ a ∈ names, Q a b := by
  induction each with
  | nil => exact ⟨.nil, by simp⟩
  | @cons a l names lists here _ ih =>
      rw [List.pairwise_cons] at ascending
      obtain ⟨sorted, members⟩ := ih ascending.2
      rw [List.flatten_cons, List.pairwise_append]
      refine ⟨⟨here.1, sorted, fun b inside b' inside' => ?_⟩, fun b member => ?_⟩
      · obtain ⟨a', later, found⟩ := members b' inside'
        exact apart a a' b b' (ascending.1 a' later) (here.2 b inside) found
      · rcases List.mem_append.mp member with inside | inside
        · exact ⟨a, List.mem_cons_self, here.2 b inside⟩
        · obtain ⟨a', later, found⟩ := members b inside
          exact ⟨a', List.mem_cons_of_mem _ later, found⟩

/-- **A walk lists the files below a directory in depth-first order.** -/
theorem pairwise_filesFrom (walked : filesFrom passes t f root depth current = .ok fs) :
    (fs.Pairwise fun p q => p.parts < q.parts) ∧
      ∀ file ∈ fs, ∃ name ∈ t.names current, IsBelow current name file := by
  induction depth generalizing current fs with
  | zero =>
      cases walked
      exact ⟨.nil, by simp⟩
  | succ depth ih =>
      rw [filesFrom_succ] at walked
      obtain ⟨lists, listed, rfl⟩ := Run.map_eq_ok_iff.mp walked
      refine pairwise_flatten ((Run.mapM_eq_ok_iff.mp listed).imp fun name l found => ?_)
        (pairwise_names t current) fun a a' b b' => parts_lt_of_isBelow
      rcases entryFiles_cases found with rfl | ⟨-, ⟨-, deeper⟩ | ⟨-, rfl⟩⟩
      · exact ⟨.nil, by simp⟩
      · obtain ⟨sorted, below⟩ := ih deeper
        refine ⟨sorted, fun file member => ?_⟩
        obtain ⟨name', -, rest, rfl⟩ := below file member
        exact ⟨name' :: rest, by simp [Path.child]⟩
      · refine ⟨List.pairwise_singleton _ _, fun file member => ?_⟩
        rw [List.mem_singleton.mp member]
        exact ⟨[], rfl⟩

/-- **A walk lists the files in depth-first order of their names.** -/
theorem pairwise_files (walked : files t f root = .ok fs) :
    fs.Pairwise fun p q => p.parts < q.parts :=
  (pairwise_filesFrom walked).1

/-- No path is listed twice. -/
theorem nodup_files (walked : files t f root = .ok fs) : fs.Nodup :=
  (pairwise_files walked).imp fun {p q} before same => by
    rw [same] at before
    exact lt_irrefl _ before

end CodeAtlas.Workspace
