/-
# Proofs.Workspace.Links -- a walk through links of any kind

A walk goes down through links, too, and may come to the same directory again and again.  It ends
because a path that leads anywhere has no more links on it than are followed, and no more names
between two links than the tree has places (`Leads.length_le`).  So every directory the walk goes
into is less deep than `depthLimit` (`length_lt_depthLimit`), and a walk that nothing limits
(`Walks`) ends as well, and with the same (`walks_iff`).

What can stop a walk are the entries it meets (`Meets`): it ends well exactly if the look at each of
them does (`exists_filesFrom_iff`).  Where a look is for the real place of a link, that is so in every
tree whose links can be resolved, such as links to nothing and links to a directory above them
(`exists_scan_of_resolvable`).
-/
import CodeAtlas.Proofs.FileTree.Resolvable
import CodeAtlas.Proofs.Workspace.IgnoreFile
import CodeAtlas.Proofs.Workspace.Within

namespace CodeAtlas.FileTree

set_option autoImplicit false

variable {t : FileTree} {links : Nat} {here p : Place} {names : List Text} {name : Text}

/-- A directory is less deep than the tree has places, if something is in it. -/
theorem Grounded.length_lt (grounded : Grounded t p) (there : t.node? (p ++ [name]) ≠ none) :
    p.length < t.nodes.length := by
  have reached : ∀ start, start <+: p ++ [name] → start ≠ [] → t.node? ([] ++ start) ≠ none := by
    intro start initial _
    rw [List.nil_append]
    rcases List.prefix_concat_iff.mp initial with rfl | initial
    · exact there
    · rw [grounded start initial]
      rintro ⟨⟩
  have deep := length_le_nodes reached
  rwa [List.length_append, List.length_singleton] at deep

theorem Grounded.length_le (grounded : Grounded t p) : p.length ≤ t.nodes.length := by
  rcases List.eq_nil_or_concat p with rfl | ⟨d, name, rfl⟩
  · exact Nat.zero_le _
  · rw [List.concat_eq_append] at grounded ⊢
    have above := grounded.dropLast
    rw [List.dropLast_concat] at above
    rw [List.length_append]
    exact above.length_lt (by rw [grounded.self]; rintro ⟨⟩)

/-- **No names lead deeper than links allow**: behind each link, and before the first, there are no
more of them than the tree has places. -/
theorem Leads.length_le (leads : Leads t true links here names p) (named : Named names)
    (grounded : Grounded t here) :
    names.length + here.length ≤ links * (t.nodes.length + 1) + t.nodes.length := by
  induction names generalizing links here with
  | nil =>
      have high := grounded.length_le
      rw [List.length_nil]
      omega
  | cons name rest ih =>
      have named' : Named rest := fun c member => named c (List.mem_cons_of_mem _ member)
      have entry := named name List.mem_cons_self
      rw [List.length_cons]
      cases leads with
      | up => exact absurd rfl entry.ne_dots
      | stay nowhere => exact absurd nowhere (not_or.mpr ⟨entry.ne_nil, entry.ne_dot⟩)
      | down _ node onward =>
          have deeper := ih onward named' (grounded.concat node)
          rw [List.length_append, List.length_singleton] at deeper
          omega
      | file _ node =>
          have high := grounded.length_lt (by rw [node]; rintro ⟨⟩)
          rw [List.length_nil]
          omega
      | link _ _ stop => cases stop
      | @through links _ _ _ target _ _ _ _ onward =>
          have high := grounded.length_le
          have more : (links + 1) * (t.nodes.length + 1) =
              links * (t.nodes.length + 1) + (t.nodes.length + 1) := Nat.succ_mul _ _
          obtain ⟨q, -, second, stop⟩ := onward.split
          by_cases last : rest = []
          · rw [last, List.length_nil]
            omega
          · have deeper := ih second named' (stop last (grounded.start _))
            omega

end CodeAtlas.FileTree

namespace CodeAtlas.Workspace

set_option autoImplicit false

open FileTree (Named WellNamed)

variable {passes : Path → Except Fault Bool} {t : FileTree} {f : Filter}
  {root current dir item path : Path} {name : Text} {below : Place} {depth : Nat}
  {r r' : Except Fault (List Path)} {o : Options}

theorem isName_of_mem_names (wellNamed : WellNamed t) (member : name ∈ t.names dir) :
    Path.IsName name := by
  obtain ⟨here, -, -, there⟩ := FileTree.mem_names.mp member
  exact wellNamed _ there name (by simp)

/-! ## How deep a walk goes -/

/-- **A directory below another is less deep than the limit of a walk**, through whatever links. -/
theorem length_lt_depthLimit {above : Place} (named : Named below)
    (directory : t.isDirectory ⟨root.root, above ++ below⟩ = true) :
    below.length < depthLimit t := by
  rw [FileTree.isDirectory, beq_iff_eq] at directory
  obtain ⟨place, located, -⟩ := FileTree.find?_eq_some_iff.mp directory
  obtain ⟨q, -, second, stop⟩ := (FileTree.leads_of_locateFrom located).split
  have whole : depthLimit t = FileTree.maxLinks * (t.nodes.length + 1) + (t.nodes.length + 1) :=
    Nat.succ_mul _ _
  by_cases top : below = []
  · rw [top, List.length_nil]
    omega
  · have deep := second.length_le named (stop top (FileTree.grounded_nil t))
    omega

/-- **A walk below a directory that nothing limits comes to an end**, with these files or a fault:
the walks below the entries it goes into do, and it is made of those. -/
inductive Walks (passes : Path → Except Fault Bool) (t : FileTree) (f : Filter) (root : Path) :
    Path → Except Fault (List Path) → Prop
  | intro {current : Path} (deeper : Path → Except Fault (List Path))
      (below : ∀ name ∈ t.names current, Enters passes t f root current name →
        Walks passes t f root (current.child name) (deeper (current.child name))) :
      Walks passes t f root current
        (((t.names current).mapM (entryFiles passes t f root deeper current)).map List.flatten)

/-- What an entry adds depends on nothing but the walk below it. -/
theorem entryFiles_congr {deeper deeper' : Path → Except Fault (List Path)}
    (same : Enters passes t f root current name →
      deeper (current.child name) = deeper' (current.child name)) :
    entryFiles passes t f root deeper current name =
      entryFiles passes t f root deeper' current name := by
  rcases entryFiles_ways passes t f root current name with
    ⟨fault, -, all⟩ | ⟨enters, all⟩ | ⟨-, -, l, all⟩
  · rw [all, all]
  · rw [all, all, same enters]
  · rw [all, all]

/-- A walk comes to one end. -/
theorem Walks.unique (first : Walks passes t f root current r)
    (second : Walks passes t f root current r') : r = r' := by
  induction first generalizing r' with
  | intro deeper below ih =>
      cases second with
      | intro deeper' below' =>
          refine congrArg (Except.map List.flatten) (Run.mapM_congr fun name member => ?_)
          exact entryFiles_congr fun enters => ih name member enters (below' name member enters)

/-- **The limit of a walk is never reached.** -/
theorem walks_filesFrom (wellNamed : WellNamed t) (named : Named below)
    (directory : below = [] ∨ t.isDirectory ⟨root.root, root.parts ++ below⟩ = true)
    (enough : depthLimit t ≤ below.length + depth) :
    Walks passes t f root ⟨root.root, root.parts ++ below⟩
      (filesFrom passes t f root depth ⟨root.root, root.parts ++ below⟩) := by
  induction depth generalizing below with
  | zero =>
      have small : below.length < depthLimit t := by
        rcases directory with rfl | directory
        · rw [List.length_nil, depthLimit]
          positivity
        · exact length_lt_depthLimit named directory
      exact absurd small (Nat.not_lt.mpr enough)
  | succ depth ih =>
      refine .intro (filesFrom passes t f root depth) fun name member enters => ?_
      have entry := FileTree.isEntryName_of_isName (isName_of_mem_names wellNamed member)
      have item : Path.child ⟨root.root, root.parts ++ below⟩ name =
          ⟨root.root, root.parts ++ (below ++ [name])⟩ := by
        rw [Path.child, List.append_assoc]
      rw [item]
      refine ih (named.concat entry) (.inr (item ▸ enters.directory)) ?_
      rw [List.length_append, List.length_singleton]
      omega

/-- **A walk ends without a limit, too, and with the same.** -/
theorem walks_iff (wellNamed : WellNamed t) :
    Walks passes t f root root r ↔ r = filesFrom passes t f root (depthLimit t) root := by
  have ends : Walks passes t f root root (filesFrom passes t f root (depthLimit t) root) := by
    have walks : Walks passes t f root ⟨root.root, root.parts ++ []⟩
        (filesFrom passes t f root (depthLimit t) ⟨root.root, root.parts ++ []⟩) :=
      walks_filesFrom wellNamed (by simp [Named]) (.inl rfl) (by simp)
    rwa [List.append_nil] at walks
  constructor
  · exact fun walks => walks.unique ends
  · rintro rfl
    exact ends

/-! ## What stops a walk -/

/-- The walk gets from a directory to another one. -/
inductive Reaches (passes : Path → Except Fault Bool) (t : FileTree) (f : Filter) (root : Path) :
    Path → Path → Prop
  | here {dir : Path} : Reaches passes t f root dir dir
  | enter {current dir : Path} {name : Text} (member : name ∈ t.names current)
      (enters : Enters passes t f root current name)
      (onward : Reaches passes t f root (current.child name) dir) :
      Reaches passes t f root current dir

/-- **The walk meets an entry** of a directory that it gets to. -/
def Meets (passes : Path → Except Fault Bool) (t : FileTree) (f : Filter) (root item : Path) :
    Prop :=
  ∃ dir name, Reaches passes t f root root dir ∧ name ∈ t.names dir ∧ item = dir.child name

/-- A walk depends on the looks at the entries it meets. -/
theorem filesFrom_congr {passes' : Path → Except Fault Bool}
    (same : ∀ dir name, Reaches passes t f root current dir → name ∈ t.names dir →
      passes (dir.child name) = passes' (dir.child name)) :
    filesFrom passes t f root depth current = filesFrom passes' t f root depth current := by
  induction depth generalizing current with
  | zero => rfl
  | succ depth ih =>
      rw [filesFrom_succ, filesFrom_succ]
      refine congrArg (Except.map List.flatten) (Run.mapM_congr fun name member => ?_)
      have looked := same current name .here member
      calc entryFiles passes t f root (filesFrom passes t f root depth) current name
          = entryFiles passes t f root (filesFrom passes' t f root depth) current name :=
            entryFiles_congr fun enters =>
              ih fun dir name' reaches => same dir name' (.enter member enters reaches)
        _ = entryFiles passes' t f root (filesFrom passes' t f root depth) current name := by
            simp only [entryFiles, looked]

theorem Reaches.wellFormed (wellNamed : WellNamed t) (reaches : Reaches passes t f root current dir)
    (wellFormed : Path.WellFormed current) : Path.WellFormed dir := by
  induction reaches with
  | here => exact wellFormed
  | enter member _ _ ih =>
      exact ih (wellFormed_child wellFormed (isName_of_mem_names wellNamed member))

theorem exists_leadsOut_iff : (∃ out, leadsOut t root item = .ok out) ↔
    (t.isLink item = true → ∃ real, t.realPath item = .ok real) := by
  rw [leadsOut]
  split
  · rename_i is
    rw [Run.exists_map_iff]
    exact ⟨fun real _ => real, fun real => real is⟩
  · rename_i isNot
    exact iff_of_true ⟨false, rfl⟩ fun is => absurd is isNot

/-- One entry stops no walk if the look at it does not, and the walk below it ends well. -/
theorem exists_entryFiles_iff {deeper : Path → Except Fault (List Path)} :
    (∃ l, entryFiles passes t f root deeper current name = .ok l) ↔
      (∃ out, passes (current.child name) = .ok out) ∧
        (Enters passes t f root current name → ∃ l, deeper (current.child name) = .ok l) := by
  rcases entryFiles_ways passes t f root current name with
    ⟨fault, stopped, all⟩ | ⟨enters, all⟩ | ⟨isNot, looked, l, all⟩
  · rw [all, stopped]
    exact iff_of_false Run.not_exists_ok fun both => Run.not_exists_ok both.1
  · rw [all]
    exact ⟨fun ends => ⟨⟨false, enters.stays⟩, fun _ => ends⟩, fun both => both.2 enters⟩
  · rw [all]
    exact iff_of_true ⟨l, rfl⟩ ⟨looked, fun enters => absurd enters isNot⟩

/-- **A walk ends well exactly if the look at each entry does** in the directories it gets to. -/
theorem Walks.exists_ok_iff (walks : Walks passes t f root current r) :
    (∃ fs, r = .ok fs) ↔ ∀ dir name, Reaches passes t f root current dir → name ∈ t.names dir →
      ∃ out, passes (dir.child name) = .ok out := by
  induction walks with
  | @intro current deeper below ih =>
      rw [Run.exists_map_iff, Run.exists_mapM_iff]
      simp only [exists_entryFiles_iff]
      constructor
      · intro each dir name reaches member
        cases reaches with
        | here => exact (each name member).1
        | enter member' enters onward =>
            exact (ih _ member' enters).mp ((each _ member').2 enters) dir name onward member
      · intro all name member
        refine ⟨all current name .here member, fun enters => ?_⟩
        exact (ih name member enters).mpr fun dir name' onward =>
          all dir name' (.enter member enters onward)

theorem exists_filesFrom_iff (wellNamed : WellNamed t) :
    (∃ fs, filesFrom passes t f root (depthLimit t) root = .ok fs) ↔
      ∀ item, Meets passes t f root item → ∃ out, passes item = .ok out := by
  rw [((walks_iff wellNamed).mpr rfl).exists_ok_iff]
  constructor
  · rintro all item ⟨dir, name, reaches, member, rfl⟩
    exact all dir name reaches member
  · exact fun all dir name reaches member => all _ ⟨dir, name, reaches, member, rfl⟩

/-! ## Scans -/

/-- An ignore file that is not asked for, or does no harm, gives a filter. -/
theorem exists_filter (valid : o.respectIgnoreFile = true → Survivable t root) :
    ∃ f, filter t root o = .ok f := by
  by_cases respects : o.respectIgnoreFile = true
  · exact ⟨_, (filter_eq_ok_iff respects).mpr ⟨valid respects, rfl⟩⟩
  · have rules := readRules_eq_ok_iff.mpr ⟨isPattern_of_mem_defaultRules, rfl⟩
    rw [filter, if_neg respects]
    change ∃ f, (readRules (defaultRules ++ []) >>= fun rules => _) = _
    rw [List.append_nil, rules]
    exact ⟨_, rfl⟩

/-- **Where all links can be resolved, a scan returns.** -/
theorem exists_scan_of_resolvable (wellNamed : WellNamed t) (wellFormed : Path.WellFormed path)
    (filtered : ∀ root, t.realPath path = .ok root → ∃ f, filter t root o = .ok f)
    (links : ∀ p target, t.node? p = some (.link target) → t.Resolvable ⟨1, p⟩) :
    ∃ c, scan t path o = .ok c := by
  have exists_real (item : Path) (item_ : Path.WellFormed item) :
      ∃ real, t.realPath item = .ok real := by
    obtain ⟨depth, p, resolves⟩ := FileTree.resolvable_of_links links item
    exact ⟨_, FileTree.realPath_of_resolves item_ resolves⟩
  obtain ⟨root, real⟩ := exists_real path wellFormed
  obtain ⟨f, filter_⟩ := filtered root real
  have root_ := (FileTree.wellFormed_realPath wellFormed real).2
  have listed : ∃ fs, files t f root = .ok fs := (exists_filesFrom_iff wellNamed).mpr <| by
    rintro item ⟨dir, name, reaches, member, rfl⟩
    have dir_ := reaches.wellFormed wellNamed root_
    exact exists_leadsOut_iff.mpr fun _ =>
      exists_real _ (wellFormed_child dir_ (isName_of_mem_names wellNamed member))
  obtain ⟨fs, listed⟩ := listed
  exact ⟨_, scan_eq_ok_iff.mpr ⟨root, f, fs, ⟨real, filter_, listed⟩, rfl⟩⟩

end CodeAtlas.Workspace
