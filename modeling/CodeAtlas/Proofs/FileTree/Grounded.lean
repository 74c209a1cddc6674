/-
# Proofs.FileTree.Grounded -- places below directories that are no links

A path whose directories are all there, none of them through a link, leads where its names say: the
walk goes straight down (`locateFrom_append`).  So what is found at the end of it is the node of
that place (`find?_concat`), which also is its real place (`realPath_concat`); and writing a file or
making a directory there succeeds exactly when nothing of another kind is in the way
(`write_concat_eq_ok_iff`, `makeDirectories_concat_eq_ok_iff`).

A directory is `Regular` when it is such a place and no link stands anywhere below it.  It stays so
when files and directories are put below it (`Regular.put`).
-/
import CodeAtlas.Proofs.FileTree.Write
import CodeAtlas.Proofs.Path
import CodeAtlas.Proofs.Text.Order

namespace CodeAtlas.FileTree

set_option autoImplicit false

variable {t t' : FileTree} {d p : Place} {name : Text} {follow : Bool} {links root : Nat}

/-- The names are such as entries of directories have. -/
def Named (p : Place) : Prop := ∀ name ∈ p, IsEntryName name

theorem Named.concat (named : Named d) (entry : IsEntryName name) : Named (d ++ [name]) := by
  intro other member
  rcases List.mem_append.mp member with inside | last
  · exact named other inside
  · rw [List.mem_singleton.mp last]
    exact entry

/-! ## Walking down -/

/-- Directories are passed by their names. -/
theorem locateFrom_append {here names rest : List Text} (named : Named names)
    (grounded : Grounded t (here ++ names)) :
    t.locateFrom follow links here (names ++ rest) =
      t.locateFrom follow links (here ++ names) rest := by
  induction names generalizing here with
  | nil => rw [List.nil_append, List.append_nil]
  | cons name names ih =>
      have entry := named name List.mem_cons_self
      have here_ : t.node? (here ++ [name]) = some .directory :=
        grounded _ ⟨names, by simp⟩
      have onward : t.locateFrom follow links (here ++ [name]) (names ++ rest) =
          t.locateFrom follow links (here ++ [name] ++ names) rest :=
        ih (fun n member => named n (List.mem_cons_of_mem _ member)) (by simpa using grounded)
      rw [List.cons_append, locateFrom, if_neg (by simpa using entry.ne_dots),
        if_neg (by simpa using ⟨entry.ne_nil, entry.ne_dot⟩), here_]
      simpa using onward

theorem locateFrom_of_grounded (named : Named d) (grounded : Grounded t d) :
    t.locateFrom follow links [] d = .ok d := by
  have whole : t.locateFrom follow links [] (d ++ []) = t.locateFrom follow links ([] ++ d) [] :=
    locateFrom_append named (by simpa using grounded)
  rw [List.append_nil] at whole
  rw [whole, locateFrom]
  rfl

theorem locate_of_grounded (named : Named d) (grounded : Grounded t d) :
    t.locate ⟨root, d⟩ = .ok d :=
  locateFrom_of_grounded named grounded

/-- One name below a directory: either something stands there, or the walk ends. -/
theorem locateFrom_concat (named : Named d) (grounded : Grounded t d) (entry : IsEntryName name)
    (notLink : ∀ target, t.node? (d ++ [name]) ≠ some (.link target)) :
    t.locateFrom follow links [] (d ++ [name]) =
      if (t.node? (d ++ [name])).isSome then .ok (d ++ [name]) else .error (.absent name) := by
  rw [locateFrom_append named (by simpa using grounded), List.nil_append, locateFrom,
    if_neg (by simpa using entry.ne_dots), if_neg (by simpa using ⟨entry.ne_nil, entry.ne_dot⟩)]
  split
  · rename_i node
    simp [node]
  · rename_i node
    simp [node, locateFrom]
  · rename_i content node
    simp [node]
  · rename_i target node
    exact absurd node (notLink target)

/-- **What a path finds is the node of its place.** -/
theorem find?_concat (named : Named d) (grounded : Grounded t d) (entry : IsEntryName name)
    (notLink : ∀ target, t.node? (d ++ [name]) ≠ some (.link target)) :
    t.find? ⟨root, d ++ [name]⟩ = t.node? (d ++ [name]) := by
  rw [find?, locate, locateFrom_concat named grounded entry notLink]
  cases node : t.node? (d ++ [name]) with
  | none => rfl
  | some n => simp [node]

theorem isLink_concat (named : Named d) (grounded : Grounded t d) (entry : IsEntryName name)
    (notLink : ∀ target, t.node? (d ++ [name]) ≠ some (.link target)) :
    t.isLink ⟨root, d ++ [name]⟩ = false := by
  rw [isLink, locateFrom_concat named grounded entry notLink]
  cases node : t.node? (d ++ [name]) with
  | none => rfl
  | some n =>
      simp only [Option.isSome_some, if_true, node]
      split
      · rename_i target link
        exact absurd (link ▸ node) (notLink target)
      · rfl

/-- **Reading depends on nothing but the node of the place.** -/
theorem read_concat (named : Named d) (grounded : Grounded t d) (entry : IsEntryName name)
    (notLink : ∀ target, t.node? (d ++ [name]) ≠ some (.link target)) :
    t.read ⟨root, d ++ [name]⟩ =
      match t.node? (d ++ [name]) with
      | some (.file content) => .ok content
      | some _ => .error .isADirectory
      | none => .error .notFound := by
  rw [read, locate, locateFrom_concat named grounded entry notLink]
  cases node : t.node? (d ++ [name]) with
  | none => rfl
  | some n =>
      simp only [Option.isSome_some, if_true, node]
      cases n with
      | file content => rfl
      | directory => rfl
      | link target => rfl

/-! ## Real places -/

theorem resolveFrom_of_no_links {depth : Nat} {active : List Place} {here names : List Text}
    (named : Named names)
    (notLink : ∀ start target, start <+: names → t.node? (here ++ start) ≠ some (.link target)) :
    t.resolveFrom depth active here names = { place := here ++ names } := by
  induction names generalizing here with
  | nil => rw [resolveFrom, List.append_nil]
  | cons name names ih =>
      have onward : t.resolveFrom depth active (here ++ [name]) names =
          { place := here ++ [name] ++ names } := by
        refine ih (fun n member => named n (List.mem_cons_of_mem _ member)) ?_
        intro start target above
        rw [List.append_assoc]
        exact notLink _ target (List.cons_prefix_cons.mpr ⟨rfl, above⟩)
      rw [resolveFrom]
      dsimp only
      rw [if_neg (by simpa using (named name List.mem_cons_self).ne_dots)]
      split
      · rename_i target node
        exact absurd node (notLink [name] target (by simp))
      · rw [onward, List.append_assoc]
        rfl

/-- A path of which nothing is left is resolved to its place. -/
theorem resolved_eq {path : Path}
    (whole : t.resolveFrom t.linkCount [] [] path.parts = { place := p }) :
    t.resolved path = ⟨1, p⟩ := by
  rw [resolved, whole]
  simp

theorem realPath_of_locate (named : Named p) (located : t.locate ⟨1, p⟩ = .ok p)
    (notLink : ∀ start target, start <+: p → t.node? start ≠ some (.link target)) :
    t.realPath ⟨root, p⟩ = .ok ⟨1, p⟩ := by
  have resolved : t.resolved ⟨root, p⟩ = ⟨1, [] ++ p⟩ :=
    resolved_eq (resolveFrom_of_no_links named notLink)
  rw [realPath, resolved, List.nil_append, located]

/-- The real place of a directory that is no link is the directory itself. -/
theorem realPath_of_grounded (named : Named d) (grounded : Grounded t d) :
    t.realPath ⟨root, d⟩ = .ok ⟨1, d⟩ := by
  refine realPath_of_locate named (locate_of_grounded named grounded) fun start target above => ?_
  rw [grounded start above]
  rintro ⟨⟩

theorem realPath_concat (named : Named d) (grounded : Grounded t d) (entry : IsEntryName name)
    {n : FileNode} (node : t.node? (d ++ [name]) = some n) (notLink : ∀ target, n ≠ .link target) :
    t.realPath ⟨root, d ++ [name]⟩ = .ok ⟨1, d ++ [name]⟩ := by
  have here_ : ∀ target, t.node? (d ++ [name]) ≠ some (.link target) := by
    rw [node]
    exact fun target same => notLink target (Option.some.inj same)
  refine realPath_of_locate (named.concat entry) ?_ fun start target above => ?_
  · rw [locate, locateFrom_concat named grounded entry here_, node]
    rfl
  · rcases List.prefix_concat_iff.mp above with rfl | above
    · exact here_ target
    · rw [grounded start above]
      rintro ⟨⟩

/-! ## Names in a directory -/

/-- A name is in a directory when something stands at its place. -/
theorem mem_namesAt : name ∈ t.namesAt p ↔ t.node? (p ++ [name]) ≠ none := by
  rw [node?_of_ne_nil _ (by simp), Ne, List.lookup_eq_none_iff, namesAt, Text.mem_sort,
    Text.mem_distinct, List.mem_filterMap]
  constructor
  · rintro ⟨⟨q, n⟩, member, found⟩ free
    split at found
    · rename_i above
      rw [beq_iff_eq] at above
      have whole := List.dropLast_append_getLast? name found
      rw [above] at whole
      exact bne_iff_ne.mp (free _ member) whole
    · cases found
  · intro taken
    push Not at taken
    obtain ⟨⟨q, n⟩, member, same⟩ := taken
    have same : p ++ [name] = q := by simpa using same
    exact ⟨(q, n), member, by simp [← same]⟩

theorem nodup_namesAt (t : FileTree) (p : Place) : (t.namesAt p).Nodup :=
  (Text.sort_perm _).nodup_iff.mpr (Text.nodup_distinct _)

theorem names_of_grounded (named : Named d) (grounded : Grounded t d) :
    t.names ⟨root, d⟩ = t.namesAt d := by
  rw [names, locate_of_grounded named grounded]
  simp [grounded.self]

/-- Below a directory no place is deeper than the tree has nodes. -/
theorem length_le_nodes {above : Place}
    (reached : ∀ start, start <+: p → start ≠ [] → t.node? (above ++ start) ≠ none) :
    p.length ≤ t.nodes.length := by
  have places : ((List.range p.length).map fun i => above ++ p.take (i + 1)).Nodup := by
    refine List.Nodup.map_on ?_ List.nodup_range
    intro i small j small' same
    have lengths := congrArg List.length (List.append_cancel_left same)
    rw [List.mem_range] at small small'
    simp only [List.length_take] at lengths
    omega
  have inside : ((List.range p.length).map fun i => above ++ p.take (i + 1)) ⊆
      t.nodes.map Prod.fst := by
    intro q member
    obtain ⟨i, small, rfl⟩ := List.mem_map.mp member
    rw [List.mem_range] at small
    have some_ : p.take (i + 1) ≠ [] := by
      rw [← List.length_pos_iff, List.length_take]
      omega
    have node := reached _ (List.take_prefix _ _) some_
    rw [node?_of_ne_nil _ (by simp [some_]), Ne, List.lookup_eq_none_iff] at node
    push Not at node
    obtain ⟨n, member, same⟩ := node
    have same : above ++ p.take (i + 1) = n.1 := by simpa using same
    exact List.mem_map.mpr ⟨n, member, same.symm⟩
  simpa using (List.subperm_of_subset places inside).length_le

/-! ## Writing -/

/-- **A file is written where no directory stands.** -/
theorem write_concat_eq_ok_iff (named : Named d) (grounded : Grounded t d)
    (entry : IsEntryName name) (notLink : ∀ target, t.node? (d ++ [name]) ≠ some (.link target))
    {content : Bytes} :
    t.write ⟨root, d ++ [name]⟩ content = .ok t' ↔
      t.node? (d ++ [name]) ≠ some .directory ∧ t' = t.put (d ++ [name]) (.file content) := by
  have directory : t.locateFrom true maxLinks [] d = .ok d := locateFrom_of_grounded named grounded
  rw [write, placeToWrite, locateFrom_concat named grounded entry notLink]
  cases node : t.node? (d ++ [name]) with
  | none =>
      have dots : (name == "..".toList) = false := beq_eq_false_iff_ne.mpr entry.ne_dots
      simp only [Option.isSome_none, Bool.false_eq_true, if_false, List.dropLast_concat, directory,
        List.getLast?_concat, dots, grounded.self, beq_self_eq_true, if_true, Except.map,
        Except.ok.injEq]
      exact ⟨fun same => ⟨by rintro ⟨⟩, same.symm⟩, fun both => both.2.symm⟩
  | some n =>
      simp only [Option.isSome_some, if_true, node]
      cases n with
      | file old => simp [Except.map, eq_comm]
      | directory => simp [Except.map]
      | link target => exact absurd node (notLink target)

theorem foldlM_of_ok {α β ε : Type} {f : β → α → Except ε β} {b : β} {l : List α}
    (idle : ∀ a ∈ l, f b a = .ok b) : l.foldlM f b = .ok b := by
  induction l with
  | nil => rfl
  | cons a l ih =>
      rw [List.foldlM_cons, idle a List.mem_cons_self, Run.ok_bind]
      exact ih fun a' later => idle a' (List.mem_cons_of_mem _ later)

/-- **A directory is there already, or it is made where nothing stands.** -/
theorem makeDirectories_concat_eq_ok_iff (named : Named d) (grounded : Grounded t d)
    (entry : IsEntryName name) (notLink : ∀ target, t.node? (d ++ [name]) ≠ some (.link target)) :
    t.makeDirectories ⟨root, d ++ [name]⟩ = .ok t' ↔
      t.node? (d ++ [name]) = some .directory ∧ t' = t ∨
        t.node? (d ++ [name]) = none ∧ t' = t.put (d ++ [name]) .directory := by
  have above : ∀ n ∈ List.range d.length,
      t.isDirectory ⟨root, (d ++ [name]).take (n + 1)⟩ = true := by
    intro n small
    rw [List.mem_range] at small
    rw [List.take_append_of_le_length (by omega), isDirectory, find?, locate_of_grounded
      (fun c member => named c (List.mem_of_mem_take member))
      fun start above => grounded start (above.trans (List.take_prefix _ _))]
    simp [grounded _ (List.take_prefix _ _)]
  rw [makeDirectories, List.length_append, List.length_singleton, List.range_succ,
    List.foldlM_append, foldlM_of_ok fun n member => by simp only [above n member, if_true],
    Run.ok_bind, List.foldlM_cons]
  have whole : (d ++ [name]).take (d.length + 1) = d ++ [name] := List.take_of_length_le (by simp)
  simp only [whole, isDirectory, find?_concat named grounded entry notLink, List.foldlM_nil,
    makeDirectory, locateFrom_concat named grounded entry notLink]
  cases node : t.node? (d ++ [name]) with
  | none =>
      simp [locate_of_grounded named grounded, grounded.self, Path.name, bind, Except.bind, pure,
        Except.pure, eq_comm]
  | some n =>
      cases n with
      | file content => simp [bind, Except.bind]
      | directory => simp [bind, Except.bind, pure, Except.pure, eq_comm]
      | link target => exact absurd node (notLink target)

/-! ## Directories without links -/

/-- **A directory with no link on the way to it or below it**, whose names are names. -/
structure Regular (t : FileTree) (root : Place) : Prop where
  grounded : Grounded t root
  names : ∀ r, t.node? (root ++ r) ≠ none → ∀ name ∈ root ++ r, Path.IsName name
  notLink : ∀ r target, t.node? (root ++ r) ≠ some (.link target)

theorem isEntryName_of_isName (name_ : Path.IsName name) : IsEntryName name :=
  ⟨name_.ne_nil, name_.ne_dot, name_.ne_dots⟩

namespace Regular

variable {root r : Place} {n : FileNode}

theorem named (regular : Regular t root) (node : t.node? (root ++ r) ≠ none) :
    Named (root ++ r) :=
  fun name member => isEntryName_of_isName (regular.names r node name member)

theorem root_names (regular : Regular t root) : ∀ name ∈ root, Path.IsName name := by
  have node := regular.names [] (by simp [regular.grounded.self])
  simpa using node

theorem root_named (regular : Regular t root) : Named root :=
  fun name member => isEntryName_of_isName (regular.root_names name member)

/-- **Putting a file or a directory below keeps the directory regular.** -/
theorem put (regular : Regular t root) (below : r ≠ []) (names : ∀ name ∈ r, Path.IsName name)
    (notLink : ∀ target, n ≠ .link target) : Regular (t.put (root ++ r) n) root := by
  have some_ : root ++ r ≠ [] := by simp [below]
  refine ⟨fun d above => ?_, fun q node name member => ?_, fun q target node => ?_⟩
  · have other : d ≠ root ++ r := by
      rintro rfl
      have lengths := above.length_le
      rw [List.length_append] at lengths
      exact below (List.length_eq_zero_iff.mp (by omega))
    rw [node?_put_of_ne t some_ _ other]
    exact regular.grounded d above
  · by_cases here : root ++ q = root ++ r
    · rw [here] at member
      rcases List.mem_append.mp member with above | inside
      · exact regular.root_names name above
      · exact names name inside
    · rw [node?_put_of_ne t some_ _ here] at node
      exact regular.names q node name member
  · rw [node?_put t some_] at node
    split at node
    · exact notLink target (Option.some.inj node)
    · exact regular.notLink q target node

/-- A directory is regular if no link is on the disk, and nothing but names. -/
theorem of_nodes (grounded : Grounded t root)
    (names : ∀ e ∈ t.nodes, ∀ name ∈ e.1, Path.IsName name)
    (notLink : ∀ e ∈ t.nodes, ∀ target, e.2 ≠ .link target) : Regular t root := by
  refine ⟨grounded, fun r there => ?_, fun r target node => ?_⟩
  · by_cases top : root ++ r = []
    · simp [top]
    · obtain ⟨n, node⟩ := Option.ne_none_iff_exists'.mp there
      exact names _ (mem_nodes top node)
  · by_cases top : root ++ r = []
    · rw [top, node?_nil] at node
      cases node
    · exact notLink _ (mem_nodes top node) target rfl

end Regular

end CodeAtlas.FileTree
