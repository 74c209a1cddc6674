/-
# Proofs.Workspace.Walk -- which files a walk lists

In a workspace without links a file is listed when names lead down to it through directories that
are entered, and it is not ignored itself (`Visits`).  The walk lists every such file once and
nothing else (`files_spec`): it looks at the names of each directory, which are distinct, asks what
stands at each of them (`entryFiles_eq`), and goes deep enough, because no place is deeper than the
tree has nodes.

What is listed depends on what stands where, not on the contents of files, nor on anything below a
directory that is not entered (`Visits.alike`).
-/
import CodeAtlas.Proofs.FileTree.Grounded
import CodeAtlas.Workspace.Walk

namespace CodeAtlas.Workspace

set_option autoImplicit false

open FileTree (Grounded Regular)

variable {t t' : FileTree} {f : Filter} {root above : Place} {name : Text} {names : List Text}

/-- **Names lead from a directory of the workspace to a file that is listed.** -/
inductive Visits (t : FileTree) (f : Filter) (root : Place) : Place → List Text → Prop
  | file {above : Place} {name : Text} {content : Bytes}
      (node : t.node? (root ++ above ++ [name]) = some (.file content))
      (wanted : isIgnored f.rules (Path.toText ⟨0, above ++ [name]⟩) = false) :
      Visits t f root above [name]
  | down {above : Place} {name : Text} {rest : List Text}
      (node : t.node? (root ++ above ++ [name]) = some .directory) (entered : f.skips name = false)
      (wanted : isIgnored f.rules (Path.toText ⟨0, above ++ [name]⟩ ++ ['/']) = false)
      (onward : Visits t f root (above ++ [name]) rest) : Visits t f root above (name :: rest)

theorem Visits.ne_nil (visits : Visits t f root above names) : names ≠ [] := by
  cases visits with
  | file => simp
  | down => simp

/-- Something stands at every place on the way. -/
theorem Visits.node (visits : Visits t f root above names) {start : List Text}
    (initial : start <+: names) (some_ : start ≠ []) : t.node? (root ++ above ++ start) ≠ none := by
  induction visits generalizing start with
  | @file above name content node _ =>
      obtain ⟨first, start, rfl⟩ := List.exists_cons_of_ne_nil some_
      obtain ⟨rfl, last⟩ := List.cons_prefix_cons.mp initial
      rw [List.prefix_nil.mp last, node]
      simp
  | @down above name rest node _ _ _ ih =>
      obtain ⟨first, start, rfl⟩ := List.exists_cons_of_ne_nil some_
      obtain ⟨rfl, later⟩ := List.cons_prefix_cons.mp initial
      by_cases last : start = []
      · rw [last, node]
        simp
      · have further := ih later last
        rwa [← List.append_assoc, List.append_assoc _ [first]] at further

/-- The file at the end of the way, and the directory it is in. -/
theorem Visits.exists_file (visits : Visits t f root above names)
    (grounded : Grounded t (root ++ above)) :
    ∃ within name content, names = within ++ [name] ∧ Grounded t (root ++ above ++ within) ∧
      t.node? (root ++ above ++ within ++ [name]) = some (.file content) := by
  induction visits with
  | @file above name content node _ =>
      exact ⟨[], name, content, rfl, by simpa using grounded, by simpa using node⟩
  | @down above name rest node _ _ _ ih =>
      obtain ⟨within, last, content, rfl, ground, file⟩ := ih (by simpa using grounded.concat node)
      exact ⟨name :: within, last, content, rfl, by simpa using ground, by simpa using file⟩

/-- A way that starts at a file ends there. -/
theorem Visits.at_file {content : Bytes} (visits : Visits t f root above names)
    (first : names.head? = some name)
    (node : t.node? (root ++ above ++ [name]) = some (.file content)) :
    names = [name] ∧ isIgnored f.rules (Path.toText ⟨0, above ++ [name]⟩) = false := by
  cases visits with
  | file _ wanted =>
      cases first
      exact ⟨rfl, wanted⟩
  | down node' _ _ _ =>
      cases first
      rw [node] at node'
      cases node'

/-- A way that starts at a directory enters it. -/
theorem Visits.at_directory (visits : Visits t f root above names)
    (first : names.head? = some name)
    (node : t.node? (root ++ above ++ [name]) = some .directory) :
    (f.skips name = false ∧
      isIgnored f.rules (Path.toText ⟨0, above ++ [name]⟩ ++ ['/']) = false) ∧
      ∃ rest, names = name :: rest ∧ Visits t f root (above ++ [name]) rest := by
  cases visits with
  | file node' _ =>
      cases first
      rw [node] at node'
      cases node'
  | down _ entered wanted onward =>
      cases first
      exact ⟨⟨entered, wanted⟩, _, rfl, onward⟩

/-! ## The list of the walk -/

/-- Lists of distinct members for distinct names, each member for one name, make one such list. -/
theorem flatten_spec {α β : Type} {Q : α → β → Prop} {names : List α} {lists : List (List β)}
    (each : List.Forall₂ (fun a l => l.Nodup ∧ ∀ b, b ∈ l ↔ Q a b) names lists)
    (nodup : names.Nodup) (apart : ∀ a a' b, Q a b → Q a' b → a = a') :
    lists.flatten.Nodup ∧ ∀ b, b ∈ lists.flatten ↔ ∃ a ∈ names, Q a b := by
  induction each with
  | nil => exact ⟨List.nodup_nil, by simp⟩
  | @cons a l names lists here _ ih =>
      rw [List.nodup_cons] at nodup
      obtain ⟨nodup', members⟩ := ih nodup.2
      refine ⟨List.nodup_append.mpr ⟨here.1, nodup', ?_⟩, fun b => ?_⟩
      · rintro b inside b' inside' rfl
        obtain ⟨a', later, found⟩ := (members b).mp inside'
        exact nodup.1 (apart a a' b ((here.2 b).mp inside) found ▸ later)
      · rw [List.flatten_cons, List.mem_append, here.2, members]
        simp

theorem below_child : (Path.below ⟨1, root⟩ (Path.child ⟨1, root ++ above⟩ name)) =
    ⟨0, above ++ [name]⟩ := by
  simp [Path.below, Path.child]

/-- The files that come from one entry of a directory. -/
def entryFiles (passes : Path → Except Fault Bool) (t : FileTree) (f : Filter) (root : Path)
    (deeper : Path → Except Fault (List Path)) (current : Path) (name : Text) :
    Except Fault (List Path) := do
  let item := current.child name
  let path := (root.below item).toText
  if ← passes item then return []
  else if t.isDirectory item then
    if f.skips name || isIgnored f.rules (path ++ ['/']) then return []
    else deeper item
  else if t.isFile item && !isIgnored f.rules path then return [item]
  else return []

theorem filesFrom_succ (passes : Path → Except Fault Bool) (t : FileTree) (f : Filter) (root : Path)
    (depth : Nat) (current : Path) :
    filesFrom passes t f root (depth + 1) current =
      ((t.names current).mapM
        (entryFiles passes t f root (filesFrom passes t f root depth) current)).map
          List.flatten := rfl

/-- The list holds the files on the ways from a directory, each once. -/
def Lists (t : FileTree) (f : Filter) (root above : Place) (ways : List Text → Prop)
    (l : List Path) : Prop :=
  l.Nodup ∧ ∀ file, file ∈ l ↔
    ∃ names, ways names ∧ Visits t f root above names ∧ file = ⟨1, root ++ above ++ names⟩

theorem lists_nil {ways : List Text → Prop}
    (closed : ∀ names, ways names → ¬ Visits t f root above names) :
    Lists t f root above ways [] := by
  refine ⟨List.nodup_nil, fun file => ⟨fun member => absurd member List.not_mem_nil, ?_⟩⟩
  rintro ⟨names, way, visits, -⟩
  exact absurd visits (closed names way)

/-- Ways through different entries of a directory lead to different files. -/
theorem lists_flatten {entries : List Text} {lists : List (List Path)} {P : List Text → Prop}
    (each : List.Forall₂
      (fun name => Lists t f root above fun names => names.head? = some name ∧ P names) entries
      lists)
    (nodup : entries.Nodup) :
    Lists t f root above (fun names => ∃ name ∈ entries, names.head? = some name ∧ P names)
      lists.flatten := by
  obtain ⟨nodup', members⟩ := flatten_spec each nodup fun name name' file way way' => by
    obtain ⟨names, ⟨first, -⟩, -, rfl⟩ := way
    obtain ⟨names', ⟨first', -⟩, -, same⟩ := way'
    have parts := List.append_cancel_left (Path.mk.inj same).2
    rw [← parts, first] at first'
    exact Option.some.inj first'
  refine ⟨nodup', fun file => (members file).trans ?_⟩
  constructor
  · rintro ⟨name, member, names, way, rest⟩
    exact ⟨names, ⟨name, member, way⟩, rest⟩
  · rintro ⟨names, ⟨name, member, way⟩, rest⟩
    exact ⟨name, member, names, way, rest⟩

/-- What an entry adds is told by what stands at its place. -/
theorem entryFiles_eq (regular : Regular t root) (grounded : Grounded t (root ++ above))
    (member : name ∈ t.namesAt (root ++ above)) (deeper : Path → Except Fault (List Path)) :
    entryFiles (leadsOut t ⟨1, root⟩) t f ⟨1, root⟩ deeper ⟨1, root ++ above⟩ name =
      match t.node? (root ++ above ++ [name]) with
      | some .directory =>
          if f.skips name || isIgnored f.rules (Path.toText ⟨0, above ++ [name]⟩ ++ ['/']) then .ok []
          else deeper ⟨1, root ++ above ++ [name]⟩
      | some (.file _) =>
          if isIgnored f.rules (Path.toText ⟨0, above ++ [name]⟩) then .ok []
          else .ok [⟨1, root ++ above ++ [name]⟩]
      | _ => .ok [] := by
  rw [FileTree.mem_namesAt] at member
  have place : root ++ above ++ [name] = root ++ (above ++ [name]) := List.append_assoc _ _ _
  have named : FileTree.Named (root ++ above) := regular.named (by rw [grounded.self]; simp)
  have entry := regular.named (place ▸ member) name (by simp)
  have notLink : ∀ target, t.node? (root ++ above ++ [name]) ≠ some (.link target) := by
    rw [place]
    exact regular.notLink _
  have link : t.isLink (Path.child ⟨1, root ++ above⟩ name) = false :=
    FileTree.isLink_concat named grounded entry notLink
  have found : t.find? (Path.child ⟨1, root ++ above⟩ name) = t.node? (root ++ above ++ [name]) :=
    FileTree.find?_concat named grounded entry notLink
  simp only [entryFiles, below_child, leadsOut, link, Bool.false_eq_true, if_false, Run.ok_bind,
    FileTree.isDirectory, FileTree.isFile, found]
  cases node : t.node? (root ++ above ++ [name]) with
  | none => rfl
  | some n =>
      cases n with
      | directory => rfl
      | link target => rfl
      | file content =>
          cases isIgnored f.rules (Path.toText ⟨0, above ++ [name]⟩) <;> rfl

/-- The ways through a directory that is entered are the ways below it. -/
theorem lists_directory {depth : Nat} {l : List Path}
    (node : t.node? (root ++ above ++ [name]) = some .directory) (entered : f.skips name = false)
    (wanted : isIgnored f.rules (Path.toText ⟨0, above ++ [name]⟩ ++ ['/']) = false)
    (below : Lists t f root (above ++ [name]) (·.length ≤ depth) l) :
    Lists t f root above (fun names => names.head? = some name ∧ names.length ≤ depth + 1) l := by
  refine ⟨below.1, fun file => (below.2 file).trans ?_⟩
  constructor
  · rintro ⟨rest, short, visits, rfl⟩
    exact ⟨name :: rest, ⟨rfl, by simpa using short⟩, .down node entered wanted visits, by simp⟩
  · rintro ⟨names, ⟨first, short⟩, visits, rfl⟩
    obtain ⟨-, rest, rfl, onward⟩ := visits.at_directory first node
    exact ⟨rest, by simpa using short, onward, by simp⟩

/-- There is one way through a file. -/
theorem lists_file {depth : Nat} {content : Bytes}
    (node : t.node? (root ++ above ++ [name]) = some (.file content))
    (wanted : isIgnored f.rules (Path.toText ⟨0, above ++ [name]⟩) = false) :
    Lists t f root above (fun names => names.head? = some name ∧ names.length ≤ depth + 1)
      [⟨1, root ++ above ++ [name]⟩] := by
  refine ⟨List.nodup_singleton _, fun file => List.mem_singleton.trans ?_⟩
  constructor
  · rintro rfl
    exact ⟨[name], ⟨rfl, by simp⟩, .file node wanted, rfl⟩
  · rintro ⟨names, ⟨first, -⟩, visits, rfl⟩
    rw [(visits.at_file first node).1]

/-- **What one entry of a directory adds.** -/
theorem entryFiles_spec (regular : Regular t root) (grounded : Grounded t (root ++ above))
    (member : name ∈ t.namesAt (root ++ above)) {depth : Nat}
    {deeper : Path → Except Fault (List Path)}
    (spec : ∀ below : Place, Grounded t (root ++ below) → ∃ l, deeper ⟨1, root ++ below⟩ = .ok l ∧
      Lists t f root below (·.length ≤ depth) l) :
    ∃ l, entryFiles (leadsOut t ⟨1, root⟩) t f ⟨1, root⟩ deeper ⟨1, root ++ above⟩ name = .ok l ∧
      Lists t f root above (fun names => names.head? = some name ∧ names.length ≤ depth + 1) l := by
  rw [entryFiles_eq regular grounded member]
  cases node : t.node? (root ++ above ++ [name]) with
  | none => exact absurd node (FileTree.mem_namesAt.mp member)
  | some n =>
      cases n with
      | link target =>
          rw [List.append_assoc] at node
          exact absurd node (regular.notLink _ _)
      | directory =>
          dsimp only
          split
          · rename_i left
            refine ⟨[], rfl, lists_nil ?_⟩
            rintro names ⟨first, -⟩ visits
            obtain ⟨⟨entered, wanted⟩, -⟩ := visits.at_directory first node
            rw [entered, wanted] at left
            cases left
          · rename_i entered
            rw [Bool.not_eq_true, Bool.or_eq_false_iff] at entered
            have place := List.append_assoc root above [name]
            obtain ⟨l, listed, below⟩ := spec (above ++ [name]) (place ▸ grounded.concat node)
            exact ⟨l, place ▸ listed, lists_directory node entered.1 entered.2 below⟩
      | file content =>
          dsimp only
          split
          · rename_i ignored
            refine ⟨[], rfl, lists_nil ?_⟩
            rintro names ⟨first, -⟩ visits
            rw [(visits.at_file first node).2] at ignored
            cases ignored
          · rename_i wanted
            exact ⟨_, rfl, lists_file node (by simpa using wanted)⟩

/-- **The walk below a directory.** -/
theorem filesFrom_spec (regular : Regular t root) (depth : Nat)
    (grounded : Grounded t (root ++ above)) :
    ∃ l, filesFrom (leadsOut t ⟨1, root⟩) t f ⟨1, root⟩ depth ⟨1, root ++ above⟩ = .ok l ∧
      Lists t f root above (·.length ≤ depth) l := by
  induction depth generalizing above with
  | zero =>
      refine ⟨[], rfl, lists_nil fun names short visits => visits.ne_nil ?_⟩
      exact List.length_eq_zero_iff.mp (Nat.le_zero.mp short)
  | succ depth ih =>
      have named : FileTree.Named (root ++ above) := regular.named (by rw [grounded.self]; simp)
      obtain ⟨lists, listed, each⟩ := Run.exists_mapM fun name member =>
        entryFiles_spec (f := f) regular grounded member fun below ground => ih ground
      refine ⟨lists.flatten, ?_, ?_⟩
      · rw [filesFrom_succ, FileTree.names_of_grounded named grounded, listed]
        rfl
      · obtain ⟨nodup, members⟩ := lists_flatten each (FileTree.nodup_namesAt _ _)
        refine ⟨nodup, fun file => (members file).trans (exists_congr fun names => ?_)⟩
        constructor
        · rintro ⟨⟨name, -, -, short⟩, rest⟩
          exact ⟨short, rest⟩
        · rintro ⟨short, visits, same⟩
          obtain ⟨name, rest, rfl⟩ := List.exists_cons_of_ne_nil visits.ne_nil
          have node := visits.node (List.cons_prefix_cons.mpr ⟨rfl, List.nil_prefix⟩) (by simp)
          exact ⟨⟨name, FileTree.mem_namesAt.mpr node, rfl, short⟩, visits, same⟩

/-- **The walk lists every file that is visited, and each once.** -/
theorem files_spec (f : Filter) (regular : Regular t root) :
    ∃ l, files t f ⟨1, root⟩ = .ok l ∧ l.Nodup ∧
      ∀ file, file ∈ l ↔ ∃ names, Visits t f root [] names ∧ file = ⟨1, root ++ names⟩ := by
  have start : root ++ [] = root := List.append_nil root
  have ground : Grounded t (root ++ []) := start.symm ▸ regular.grounded
  obtain ⟨l, listed, nodup, members⟩ := filesFrom_spec (f := f) regular (depthLimit t) ground
  rw [start] at listed
  refine ⟨l, listed, nodup, fun file => (members file).trans ?_⟩
  simp only [start]
  refine exists_congr fun names => ⟨And.right, fun visits => ⟨?_, visits⟩⟩
  have short : names.length ≤ t.nodes.length :=
    FileTree.length_le_nodes fun part initial some_ => visits.1.node initial some_
  rw [depthLimit]
  calc names.length ≤ t.nodes.length := short
    _ ≤ 1 * (t.nodes.length + 1) := by omega
    _ ≤ (FileTree.maxLinks + 1) * (t.nodes.length + 1) := Nat.mul_le_mul_right _ (by decide)

/-! ## Trees that look alike -/

/-- A node without the content of its file. -/
def emptied : FileNode → FileNode
  | .file _ => .file []
  | n => n

/-- The same files and directories stand in both trees, apart from what is at or below the entry
`left` of the root; and that entry is no file. -/
structure Alike (left : Text) (root : Place) (t t' : FileTree) : Prop where
  outside : ∀ names, names.head? ≠ some left →
    (t.node? (root ++ names)).map emptied = (t'.node? (root ++ names)).map emptied
  noFile : ∀ content, t.node? (root ++ [left]) ≠ some (.file content)
  noFile' : ∀ content, t'.node? (root ++ [left]) ≠ some (.file content)

theorem Alike.symm {left : Text} (alike : Alike left root t t') : Alike left root t' t :=
  ⟨fun names outside => (alike.outside names outside).symm, alike.noFile', alike.noFile⟩

theorem emptied_eq_directory {n : FileNode} (same : emptied n = .directory) : n = .directory := by
  cases n with
  | file content => cases same
  | directory => rfl
  | link target => cases same

theorem Alike.directory {left : Text} (alike : Alike left root t t')
    (outside : names.head? ≠ some left) (node : t.node? (root ++ names) = some .directory) :
    t'.node? (root ++ names) = some .directory := by
  have same := alike.outside names outside
  rw [node, Option.map_some, eq_comm, Option.map_eq_some_iff] at same
  obtain ⟨n, node', empty⟩ := same
  rw [node', emptied_eq_directory empty]

theorem Alike.file {left : Text} (alike : Alike left root t t') (outside : names.head? ≠ some left)
    {content : Bytes} (node : t.node? (root ++ names) = some (.file content)) :
    ∃ content', t'.node? (root ++ names) = some (.file content') := by
  have same := alike.outside names outside
  rw [node, Option.map_some, eq_comm, Option.map_eq_some_iff] at same
  obtain ⟨n, node', empty⟩ := same
  cases n with
  | file content' => exact ⟨content', node'⟩
  | directory => cases empty
  | link target => cases empty

theorem Visits.alike_below {left : Text} (alike : Alike left root t t')
    (visits : Visits t f root above names) (outside : (above ++ names).head? ≠ some left) :
    Visits t' f root above names := by
  induction visits with
  | file node wanted =>
      rw [List.append_assoc] at node
      obtain ⟨content', node'⟩ := alike.file outside node
      exact .file (by rwa [List.append_assoc]) wanted
  | @down above name rest node entered wanted _ ih =>
      have here : (above ++ [name]).head? ≠ some left := by
        cases above with
        | nil => exact outside
        | cons _ _ => exact outside
      rw [List.append_assoc] at node
      exact .down (by rw [List.append_assoc]; exact alike.directory here node) entered wanted
        (ih (by simpa using outside))

/-- A walk passes over a directory that is not entered. -/
theorem Visits.head?_ne {left : Text}
    (noFile : ∀ content, t.node? (root ++ [left]) ≠ some (.file content))
    (skipped : f.skips left = true) (visits : Visits t f root [] names) :
    names.head? ≠ some left := by
  cases visits with
  | file node _ =>
      rintro ⟨⟩
      exact noFile _ (by simpa using node)
  | down _ entered _ _ =>
      rintro ⟨⟩
      rw [skipped] at entered
      cases entered

/-- **A walk that does not enter an entry of the root lists the same files whatever is there.** -/
theorem Visits.alike {left : Text} (alike : Alike left root t t') (skipped : f.skips left = true)
    (visits : Visits t f root [] names) : Visits t' f root [] names :=
  visits.alike_below alike (visits.head?_ne alike.noFile skipped)

theorem files_perm {left : Text} (regular : Regular t root) (regular' : Regular t' root)
    (alike : Alike left root t t') (skipped : f.skips left = true) {fs fs' : List Path}
    (listed : files t f ⟨1, root⟩ = .ok fs) (listed' : files t' f ⟨1, root⟩ = .ok fs') :
    fs.Perm fs' := by
  obtain ⟨l, is, nodup, members⟩ := files_spec f regular
  obtain ⟨l', is', nodup', members'⟩ := files_spec f regular'
  obtain rfl := Except.ok.inj (listed.symm.trans is)
  obtain rfl := Except.ok.inj (listed'.symm.trans is')
  rw [List.perm_ext_iff_of_nodup nodup nodup']
  intro file
  rw [members, members']
  refine exists_congr fun names => and_congr_left fun _ => ?_
  exact ⟨.alike alike skipped, .alike alike.symm skipped⟩

end CodeAtlas.Workspace
