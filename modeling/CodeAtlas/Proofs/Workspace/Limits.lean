/-
# Proofs.Workspace.Limits -- scans where paths may be too long

A walk looks up the path of every entry it meets, and that may be too long.  So an entry has to be
*passable* (`Passable`): it can be looked up, and so can what it leads to, unless it is a link out of
the workspace; and a link has a real path.  A scan returns exactly if it can start and all entries
that its walk meets are passable (`exists_scanWithin_iff`).  Otherwise a link that leads back to
itself has stopped it, or a path that is too long (`takesLinks_scan`).  The first is no matter of
limits (`not_forall_scan_returns`).

Where nothing is too long (`Short`), a scan gives what it gives without limits
(`scanWithin_of_scan`).  A tree is so if its names are short enough for the deepest path that leads
anywhere (`short_of_brief`).
-/
import CodeAtlas.Proofs.Workspace.Links
import CodeAtlas.Workspace.Limits

namespace CodeAtlas.Text

set_option autoImplicit false

variable {words : List Text} {k : Nat}

theorem length_encode_append (a b : Text) :
    (encode (a ++ b)).length = (encode a).length + (encode b).length := by
  rw [encode, List.flatMap_append, List.length_append]
  rfl

/-- Words of so many bytes make a text of as many for each, and one for what stands before it. -/
theorem length_encode_join_le (short : ∀ w ∈ words, (encode w).length ≤ k) :
    (encode (join "/" words)).length ≤ words.length * (k + 1) := by
  induction words with
  | nil => exact Nat.zero_le _
  | cons w words ih =>
      rw [List.forall_mem_cons] at short
      have first := short.1
      have later := ih short.2
      rw [List.length_cons, Nat.succ_mul]
      cases words with
      | nil =>
          rw [join_singleton]
          omega
      | cons w' words =>
          have slash : (encode "/").length = 1 := rfl
          rw [join_cons_cons, length_encode_append, length_encode_append, slash]
          omega

end CodeAtlas.Text

namespace CodeAtlas.FileTree

set_option autoImplicit false

variable {t : FileTree} {l : Limits} {follow : Bool} {links : Nat} {here : Place}
  {names : List Text} {name : Text} {path real : Path} {fault : Fault}

theorem lookUp_eq_ok_iff {u : Unit} : t.lookUp l follow path = .ok u ↔
    t.canLookUp l follow path = true := by
  rw [lookUp]
  split
  · rename_i can
    exact iff_of_true rfl can
  · rename_i cannot
    exact iff_of_false (by rintro ⟨⟩) cannot

theorem eq_nameTooLong_of_lookUp (stopped : t.lookUp l follow path = .error fault) :
    fault = .nameTooLong := by
  rw [lookUp] at stopped
  split at stopped
  · cases stopped
  · cases stopped
    rfl

theorem within_eq (places : ∀ n ∈ t.nodes, l.allowsPath ⟨1, n.1⟩ = true) : t.within l = t := by
  rw [within, List.filter_eq_self.mpr places]

theorem eq_linkLoop_of_realPathWithin (stopped : t.realPathWithin l path = .error fault) :
    fault = .linkLoop := by
  rw [realPathWithin] at stopped
  split at stopped
  · split at stopped
    · cases stopped
      rfl
    · cases stopped
  · cases stopped

/-- A real path is the real path within limits, too, if no place is beyond them. -/
theorem realPathWithin_of_realPath (places : ∀ n ∈ t.nodes, l.allowsPath ⟨1, n.1⟩ = true)
    (found : t.realPath path = .ok real) : t.realPathWithin l path = .ok real := by
  have resolved := eq_resolved_of_realPath found
  rw [realPath] at found
  rw [realPathWithin, within_eq places]
  split
  · exact found
  · rw [resolved]

/-- **A name that is missed** was asked for, or is a name in the target of a link. -/
theorem mem_of_absent (missed : t.locateFrom follow links here names = .error (.absent name)) :
    name ∈ names ∨
      ∃ p target, t.node? p = some (.link target) ∧ name ∈ Text.splitOn '/' target := by
  induction links, here, names using locateFrom.induct t follow with
  | case1 links here =>
      rw [locateFrom] at missed
      cases missed
  | case2 links here first rest dots ih =>
      rw [locateFrom, if_pos dots] at missed
      exact (ih missed).imp_left (List.mem_cons_of_mem _)
  | case3 links here first rest dots nowhere ih =>
      rw [locateFrom, if_neg dots, if_pos nowhere] at missed
      exact (ih missed).imp_left (List.mem_cons_of_mem _)
  | case4 links here first rest dots solid node =>
      rw [locateFrom, if_neg dots, if_neg solid, node] at missed
      cases missed
      exact .inl List.mem_cons_self
  | case5 links here first rest dots solid node ih =>
      rw [locateFrom, if_neg dots, if_neg solid, node] at missed
      exact (ih missed).imp_left (List.mem_cons_of_mem _)
  | case6 links here first rest dots solid content node last =>
      simp only [locateFrom, if_neg dots, if_neg solid, node, last, if_true] at missed
      cases missed
  | case7 links here first rest dots solid content node more =>
      simp only [locateFrom, if_neg dots, if_neg solid, node, more] at missed
      cases missed
  | case8 links here first rest dots solid target node stop =>
      simp only [locateFrom, if_neg dots, if_neg solid, node, stop, if_true] at missed
      cases missed
  | case9 here first rest dots solid target node go =>
      simp only [locateFrom, if_neg dots, if_neg solid, node, go] at missed
      cases missed
  | case10 here first rest dots solid target node go links ih =>
      simp only [locateFrom, if_neg dots, if_neg solid, node, go] at missed
      rcases ih missed with member | linked
      · rcases List.mem_append.mp member with inside | later
        · exact .inr ⟨_, target, node, inside⟩
        · exact .inl (List.mem_cons_of_mem _ later)
      · exact .inr linked

/-! ## Short names -/

/-- **The names of the tree have at most so many bytes**, those in the targets of links, too. -/
structure Brief (t : FileTree) (l : Limits) (k : Nat) : Prop where
  fits : k ≤ l.name
  places : ∀ n ∈ t.nodes, l.allowsPath ⟨1, n.1⟩ = true
  names : ∀ n ∈ t.nodes, ∀ name ∈ n.1, (Text.encode name).length ≤ k
  targets : ∀ n ∈ t.nodes, ∀ target, n.2 = .link target →
    ∀ name ∈ Text.splitOn '/' target, (Text.encode name).length ≤ k

variable {k : Nat}

theorem Brief.length_le (brief : Brief t l k) {p : Place} (node : t.node? p ≠ none)
    (member : name ∈ p) : (Text.encode name).length ≤ k := by
  obtain ⟨n, node⟩ := Option.ne_none_iff_exists'.mp node
  exact brief.names _ (mem_nodes (List.ne_nil_of_mem member) node) name member

/-- A path of short names, and not too many of them, can be looked up. -/
theorem Brief.canLookUp (brief : Brief t l k)
    (short : ∀ name ∈ names, (Text.encode name).length ≤ k)
    (room : 1 + names.length * (k + 1) ≤ l.path) : t.canLookUp l follow ⟨1, names⟩ = true := by
  rw [FileTree.canLookUp, Bool.and_eq_true]
  constructor
  · have written : Path.toText ⟨1, names⟩ = "/" ++ Text.join "/" names := rfl
    have slash : (Text.encode "/").length = 1 := rfl
    have joined := Text.length_encode_join_le short
    rw [Limits.allowsPath, decide_eq_true_eq, written, Text.length_encode_append, slash]
    omega
  · split
    · rename_i missing missed
      have brief_ : (Text.encode missing).length ≤ k := by
        rcases mem_of_absent missed with member | ⟨p, target, node, member⟩
        · exact short missing member
        · have top : p ≠ [] := by
            rintro rfl
            cases node
          exact brief.targets _ (mem_nodes top node) target rfl missing member
      rw [Limits.allowsName, decide_eq_true_eq]
      exact brief_.trans brief.fits
    · rfl

end CodeAtlas.FileTree

namespace CodeAtlas.Workspace

set_option autoImplicit false

open FileTree (Limits Named WellNamed)

variable {t : FileTree} {l : Limits} {f : Filter} {root current dir item path : Path} {name : Text}
  {below : Place} {depth : Nat} {o : Options} {fault : Fault} {c : Corpus}

/-! ## What stops a scan -/

/-- **An entry stops no walk**: it can be looked up, it has a real path if it is a link, and what it
leads to can be looked up if that is in the workspace. -/
structure Passable (t : FileTree) (l : Limits) (root item : Path) : Prop where
  itself : t.canLookUp l false item = true
  real : t.isLink item = true → ∃ real, t.realPathWithin l item = .ok real
  target : (t.isLink item = true → ∀ real, t.realPathWithin l item = .ok real →
    root.isWithin real = true) → t.canLookUp l true item = true

/-- What a look at an entry comes to. -/
theorem passesWithin_eq_ok_iff {out : Bool} : passesWithin t l root item = .ok out ↔
    t.canLookUp l false item = true ∧ leadsOutWithin t l root item = .ok out ∧
      (out = false → t.canLookUp l true item = true) := by
  simp only [passesWithin, Run.bind_eq_ok_iff, FileTree.lookUp_eq_ok_iff]
  constructor
  · rintro ⟨-, itself, out', leads, rest⟩
    cases out' with
    | true =>
        cases rest
        exact ⟨itself, leads, by rintro ⟨⟩⟩
    | false =>
        obtain ⟨_, target, same⟩ := Run.bind_eq_ok_iff.mp rest
        cases same
        exact ⟨itself, leads, fun _ => FileTree.lookUp_eq_ok_iff.mp target⟩
  · rintro ⟨itself, leads, target⟩
    refine ⟨(), itself, out, leads, ?_⟩
    cases out with
    | true => rfl
    | false =>
        have looked : t.lookUp l true item = .ok () := FileTree.lookUp_eq_ok_iff.mpr (target rfl)
        rw [if_neg (by decide), looked]
        rfl

theorem exists_passesWithin_iff :
    (∃ out, passesWithin t l root item = .ok out) ↔ Passable t l root item := by
  simp only [passesWithin_eq_ok_iff, leadsOutWithin]
  by_cases link : t.isLink item = true
  · simp only [if_pos link, Run.map_eq_ok_iff]
    constructor
    · rintro ⟨out, itself, ⟨real, found, rfl⟩, target⟩
      refine ⟨itself, fun _ => ⟨real, found⟩, fun inside => target ?_⟩
      rw [inside link real found]
      rfl
    · intro passable
      obtain ⟨real, found⟩ := passable.real link
      refine ⟨_, passable.itself, ⟨real, found, rfl⟩, fun stays => passable.target ?_⟩
      rintro - real' found'
      obtain rfl := Except.ok.inj (found.symm.trans found')
      simpa using stays
  · simp only [if_neg link]
    constructor
    · rintro ⟨out, itself, same, target⟩
      exact ⟨itself, fun is => absurd is link, fun _ => target (Except.ok.inj same).symm⟩
    · intro passable
      exact ⟨false, passable.itself, rfl, fun _ => passable.target fun is => absurd is link⟩

/-- A scan returns exactly if it can start and all entries that its walk meets are passable; a
workspace that cannot be looked up has none. -/
theorem exists_scanWithin_iff (wellNamed : WellNamed t) :
    (∃ c, scanWithin t l path o = .ok c) ↔ ∃ root f, t.realPathWithin l path = .ok root ∧
      filterWithin t l root o = .ok f ∧ (t.canLookUp l true root = true →
        ∀ item, Meets (passesWithin t l root) t f root item → Passable t l root item) := by
  have listed (f : Filter) (root : Path) : (∃ fs, filesWithin t l f root = .ok fs) ↔
      (t.canLookUp l true root = true →
        ∀ item, Meets (passesWithin t l root) t f root item → Passable t l root item) := by
    simp only [← exists_passesWithin_iff, filesWithin]
    by_cases can : t.canLookUp l true root = true
    · rw [if_pos can, exists_filesFrom_iff wellNamed, imp_iff_right can]
    · rw [if_neg can]
      exact iff_of_true ⟨[], rfl⟩ fun is => absurd is can
  simp only [← listed, scanWithin, Run.bind_eq_ok_iff, corpusOf_eq, Except.ok.injEq]
  constructor
  · rintro ⟨c, root, real, f, filtered, fs, listed, -⟩
    exact ⟨root, f, real, filtered, fs, listed⟩
  · rintro ⟨root, f, real, filtered, fs, listed⟩
    exact ⟨_, root, real, f, filtered, fs, listed, rfl⟩

/-- **What may stop a scan**: a link that leads back to itself, or a path that is too long. -/
def Stops (fault : Fault) : Prop := fault = .linkLoop ∨ fault = .nameTooLong

theorem stops_of_lookUp {follow : Bool} (stopped : t.lookUp l follow item = .error fault) :
    Stops fault :=
  .inr (FileTree.eq_nameTooLong_of_lookUp stopped)

theorem stops_of_passesWithin (stopped : passesWithin t l root item = .error fault) :
    Stops fault := by
  rcases Run.bind_eq_error_iff.mp stopped with itself | ⟨-, -, stopped⟩
  · exact stops_of_lookUp itself
  rcases Run.bind_eq_error_iff.mp stopped with leads | ⟨out, -, stopped⟩
  · rw [leadsOutWithin] at leads
    split at leads
    · exact .inl (FileTree.eq_linkLoop_of_realPathWithin (Run.map_eq_error_iff.mp leads))
    · cases leads
  · split at stopped
    · cases stopped
    · rcases Run.bind_eq_error_iff.mp stopped with target | ⟨-, -, ⟨⟩⟩
      exact stops_of_lookUp target

/-- With a filter, a scan is stopped by nothing else. -/
theorem stops_of_scanWithin
    (filtered : ∀ root, t.realPathWithin l path = .ok root → ∃ f, filter t root o = .ok f)
    (stopped : scanWithin t l path o = .error fault) : Stops fault := by
  rcases Run.bind_eq_error_iff.mp stopped with real | ⟨root, real, stopped⟩
  · exact .inl (FileTree.eq_linkLoop_of_realPathWithin real)
  rcases Run.bind_eq_error_iff.mp stopped with ignoreFile | ⟨f, -, stopped⟩
  · obtain ⟨f, filter_⟩ := filtered root real
    rw [filterWithin, filter_] at ignoreFile
    split at ignoreFile
    · rcases Run.bind_eq_error_iff.mp ignoreFile with looked | ⟨-, -, ⟨⟩⟩
      exact stops_of_lookUp looked
    · cases ignoreFile
  rcases Run.bind_eq_error_iff.mp stopped with listed | ⟨fs, -, stopped⟩
  · rw [filesWithin] at listed
    split at listed
    · obtain ⟨item, looked⟩ := exists_passes_eq_error listed
      exact stops_of_passesWithin looked
    · cases listed
  · rw [corpusOf_eq] at stopped
    cases stopped

/-! ## Where nothing is too long -/

/-- **No path that a scan looks up is too long**, and at no place on a real path either. -/
structure Short (t : FileTree) (l : Limits) (path : Path) (o : Options) : Prop where
  places : ∀ n ∈ t.nodes, l.allowsPath ⟨1, n.1⟩ = true
  root : ∀ root, t.realPath path = .ok root → t.canLookUp l true root = true
  ignoreFile : ∀ root, t.realPath path = .ok root →
    t.canLookUp l true (root.child ignoreFileName) = true
  entries : ∀ root f item, t.realPath path = .ok root → filter t root o = .ok f →
    Meets (leadsOut t root) t f root item → ∀ follow, t.canLookUp l follow item = true

theorem passesWithin_of_leadsOut {out : Bool} (places : ∀ n ∈ t.nodes, l.allowsPath ⟨1, n.1⟩ = true)
    (short : ∀ follow, t.canLookUp l follow item = true)
    (looked : leadsOut t root item = .ok out) : passesWithin t l root item = .ok out := by
  refine passesWithin_eq_ok_iff.mpr ⟨short false, ?_, fun _ => short true⟩
  rw [leadsOut] at looked
  rw [leadsOutWithin]
  split
  · rename_i link
    rw [if_pos link] at looked
    obtain ⟨real, found, rfl⟩ := Run.map_eq_ok_iff.mp looked
    rw [FileTree.realPathWithin_of_realPath places found]
    rfl
  · rename_i plain
    rwa [if_neg plain] at looked

/-- **A scan gives what it gives without limits**, where nothing is too long. -/
theorem scanWithin_of_scan (wellNamed : WellNamed t) (short : Short t l path o)
    (scanned : scan t path o = .ok c) : scanWithin t l path o = .ok c := by
  obtain ⟨root, f, fs, walked, rfl⟩ := scan_eq_ok_iff.mp scanned
  have real := FileTree.realPathWithin_of_realPath short.places walked.real
  have filtered : filterWithin t l root o = .ok f := by
    have looked : t.lookUp l true (root.child ignoreFileName) = .ok () :=
      FileTree.lookUp_eq_ok_iff.mpr (short.ignoreFile root walked.real)
    rw [filterWithin, looked]
    split
    · exact walked.filtered
    · exact walked.filtered
  have listed : filesWithin t l f root = .ok fs := by
    rw [filesWithin, if_pos (short.root root walked.real), ← walked.listed, files]
    refine (filesFrom_congr fun dir name reaches member => ?_).symm
    have meets : Meets (leadsOut t root) t f root (dir.child name) :=
      ⟨dir, name, reaches, member, rfl⟩
    obtain ⟨out, looked⟩ :=
      (exists_filesFrom_iff wellNamed).mp ⟨fs, walked.listed⟩ _ meets
    rw [looked, passesWithin_of_leadsOut short.places
      (short.entries root f _ walked.real walked.filtered meets) looked]
  rw [scanWithin, real, Run.ok_bind, filtered, Run.ok_bind, listed, Run.ok_bind, corpusOf_eq]

/-- A walk gets to directories below its start, by names of the tree. -/
theorem Reaches.exists_below {passes : Path → Except Fault Bool}
    (reaches : Reaches passes t f root current dir) :
    ∃ below : Place, dir = ⟨current.root, current.parts ++ below⟩ ∧
      (∀ name ∈ below, ∃ p, t.node? p ≠ none ∧ name ∈ p) ∧
      (below = [] ∨ t.isDirectory dir = true) := by
  induction reaches with
  | here => exact ⟨[], by simp, by simp, .inl rfl⟩
  | @enter current dir name member enters _ ih =>
      obtain ⟨below, rfl, known, directory⟩ := ih
      obtain ⟨here, -, -, there⟩ := FileTree.mem_names.mp member
      refine ⟨name :: below, by simp [Path.child], ?_, .inr ?_⟩
      · exact List.forall_mem_cons.mpr ⟨⟨_, there, by simp⟩, known⟩
      · rcases directory with rfl | directory
        · simpa [Path.child] using enters.directory
        · exact directory

/-- **In a tree of short names nothing is too long**, if a path has room for as many as lead
anywhere. -/
theorem short_of_brief {k : Nat} (wellNamed : WellNamed t) (wellFormed : Path.WellFormed path)
    (brief : FileTree.Brief t l k) (ignoreFile : (Text.encode ignoreFileName).length ≤ k)
    (room : ∀ root, t.realPath path = .ok root →
      (∀ name ∈ root.parts, (Text.encode name).length ≤ k) ∧
        1 + (root.parts.length + depthLimit t + 1) * (k + 1) ≤ l.path) : Short t l path o := by
  have can {root : Path} (real : t.realPath path = .ok root) {below : Place} {follow : Bool}
      (few : below.length ≤ depthLimit t + 1)
      (short : ∀ name ∈ below, (Text.encode name).length ≤ k) :
      t.canLookUp l follow ⟨root.root, root.parts ++ below⟩ = true := by
    obtain ⟨names, fits⟩ := room root real
    rw [(FileTree.wellFormed_realPath wellFormed real).1]
    refine brief.canLookUp (List.forall_mem_append.mpr ⟨names, short⟩) (le_trans ?_ fits)
    rw [List.length_append, Nat.add_assoc root.parts.length]
    gcongr
  constructor
  case places => exact brief.places
  case root =>
    intro root real
    have top : t.canLookUp l true ⟨root.root, root.parts ++ []⟩ = true :=
      can real (Nat.zero_le _) (by simp)
    rwa [List.append_nil] at top
  case ignoreFile =>
    intro root real
    exact can real (by simp) (by simpa using ignoreFile)
  case entries =>
    rintro root f item real - ⟨dir, name, reaches, member, rfl⟩ follow
    obtain ⟨below, rfl, known, directory⟩ := reaches.exists_below
    obtain ⟨here, -, -, there⟩ := FileTree.mem_names.mp member
    have short : ∀ name ∈ below, (Text.encode name).length ≤ k := fun name inside =>
      have ⟨_, node, member⟩ := known name inside
      brief.length_le node member
    have named : Named below := fun name inside =>
      have ⟨_, node, member⟩ := known name inside
      FileTree.isEntryName_of_isName (wellNamed _ node name member)
    have deep : below.length < depthLimit t := by
      rcases directory with rfl | directory
      · rw [List.length_nil, depthLimit]
        positivity
      · exact length_lt_depthLimit named directory
    rw [Path.child, List.append_assoc]
    refine can real (by simp; omega) (List.forall_mem_append.mpr ⟨short, ?_⟩)
    simpa using brief.length_le there (by simp)

/-! ## Scans -/

/-- **What becomes of a scan where there are links**, and paths may be too long. -/
structure TakesLinks (t : FileTree) (l : Limits) (path : Path) (o : Options) : Prop where
  /-- A walk comes to an end that no limit to its depth brings about, and what is listed is that
  end. -/
  ends : ∀ root f r, t.canLookUp l true root = true →
    (Walks (passesWithin t l root) t f root root r ↔ r = filesWithin t l f root)
  /-- Nor does a limit to the links within links end the search for the real place of a path. -/
  resolves : ∀ p depth, (t.within l).linkCount ≤ depth →
    (t.within l).resolveFrom (t.within l).linkCount [] [] p = (t.within l).resolveFrom depth [] [] p
  /-- The scan returns exactly if the workspace has a real place, the ignore file can be looked up
  and every entry that the walk meets can be passed. -/
  returns_iff : (∃ c, scanWithin t l path o = .ok c) ↔
    ∃ root f, t.realPathWithin l path = .ok root ∧ filterWithin t l root o = .ok f ∧
      (t.canLookUp l true root = true →
        ∀ item, Meets (passesWithin t l root) t f root item → Passable t l root item)
  /-- Nothing but links that lead back to themselves and paths that are too long stops it. -/
  stopped : ∀ fault, scanWithin t l path o = .error fault → Stops fault
  /-- It returns wherever each link can be resolved and nothing is too long. -/
  returns : (∀ p target, t.node? p = some (.link target) → t.Resolvable ⟨1, p⟩) →
    Short t l path o → ∃ c, scanWithin t l path o = .ok c

/-- **Which links a scan takes.**  When the ignore file does no harm, a scan comes to an end whatever
links there are and however long paths may be.  Only an entry on its walk that cannot be passed stops
it, and there is none in a tree whose links can all be resolved, if no path is too long. -/
theorem takesLinks_scan (wellNamed : WellNamed t) (wellFormed : Path.WellFormed path)
    (valid : ∀ root, t.realPathWithin l path = .ok root → o.respectIgnoreFile = true →
      Survivable t root) : TakesLinks t l path o := by
  have filtered : ∀ root, t.realPathWithin l path = .ok root → ∃ f, filter t root o = .ok f :=
    fun root real => exists_filter (valid root real)
  constructor
  case ends =>
    intro root f r can
    rw [walks_iff wellNamed, filesWithin, if_pos can]
  case resolves =>
    intro p
    exact FileTree.resolveFrom_eq_of_le (FileTree.ongoing_nil _) (Nat.le_refl _)
  case returns_iff => exact exists_scanWithin_iff wellNamed
  case stopped => exact fun fault => stops_of_scanWithin filtered
  case returns =>
    intro links short
    obtain ⟨c, scanned⟩ := exists_scan_of_resolvable wellNamed wellFormed
      (fun root real => filtered root (FileTree.realPathWithin_of_realPath short.places real)) links
    exact ⟨c, scanWithin_of_scan wellNamed short scanned⟩

/-- A workspace with a file, and in a directory three links: to nothing, to the workspace above, and
to that one. -/
def turningWorkspace : FileTree :=
  { nodes :=
      [(["ws".toList], .directory),
        (["ws".toList, "a.js".toList], .file (Text.encode "// @group x")),
        (["ws".toList, "in".toList], .directory),
        (["ws".toList, "in".toList, "gone".toList], .link "nowhere/at/all"),
        (["ws".toList, "in".toList, "up".toList], .link ".."),
        (["ws".toList, "in".toList, "round".toList], .link "up/in/up")] }

theorem brief_turningWorkspace : turningWorkspace.Brief {} 10 where
  fits := by decide
  places := by decide +kernel
  names := by decide +kernel
  targets := by
    rintro ⟨p, n⟩ member target rfl
    simp only [turningWorkspace, List.mem_cons, Prod.mk.injEq, FileNode.link.injEq, reduceCtorEq,
      and_false, false_or, List.not_mem_nil, or_false] at member
    rcases member with ⟨-, rfl⟩ | ⟨-, rfl⟩ | ⟨-, rfl⟩
    all_goals decide

/-- None of them stops the scan. -/
theorem takesLinks_scan_turning :
    ∃ c, scanWithin turningWorkspace {} linkedRoot {} = .ok c := by
  have wellNamed : WellNamed turningWorkspace := .of_nodes (by decide)
  have root_ : turningWorkspace.realPath linkedRoot = .ok linkedRoot := by cbv
  refine (takesLinks_scan wellNamed wellFormed_linkedRoot ?_).returns ?_ ?_
  · rintro root real -
    have within := FileTree.realPathWithin_of_realPath brief_turningWorkspace.places root_
    obtain rfl := Except.ok.inj (real.symm.trans within)
    exact .inl ⟨.notFound, by cbv⟩
  · have each : ∀ e ∈ turningWorkspace.nodes, turningWorkspace.Resolvable ⟨1, e.1⟩ :=
      of_decide_eq_true (by cbv)
    intro p target node
    have some_ : p ≠ [] := by
      rintro rfl
      cases node
    exact each _ (FileTree.mem_nodes some_ node)
  · refine short_of_brief wellNamed wellFormed_linkedRoot brief_turningWorkspace (by decide) ?_
    intro root real
    obtain rfl := Except.ok.inj (real.symm.trans root_)
    exact ⟨by decide, by decide⟩

/-- A workspace with a file, and a link that is its own target. -/
def loopedWorkspace : FileTree :=
  { nodes :=
      [(["ws".toList], .directory),
        (["ws".toList, "a.js".toList], .file (Text.encode "// @group x")),
        (["ws".toList, "loop".toList], .link "loop")] }

/-- **Not every scan returns**: a link that leads back to itself stops it. -/
theorem not_forall_scan_returns :
    ¬ ∀ t path o, WellNamed t → Path.WellFormed path →
      (∀ root, t.realPathWithin {} path = .ok root → o.respectIgnoreFile = true →
        Survivable t root) →
      ∃ c, scanWithin t {} path o = .ok c := by
  intro all
  have wellNamed : WellNamed loopedWorkspace := .of_nodes (by decide)
  have root_ : loopedWorkspace.realPathWithin {} linkedRoot = .ok linkedRoot := by cbv
  obtain ⟨c, scanned⟩ := all loopedWorkspace linkedRoot {} wellNamed wellFormed_linkedRoot <| by
    rintro root real -
    obtain rfl := Except.ok.inj (real.symm.trans root_)
    exact .inl ⟨.notFound, by cbv⟩
  obtain ⟨root, f, real, -, passable⟩ := (exists_scanWithin_iff wellNamed).mp ⟨c, scanned⟩
  obtain rfl := Except.ok.inj (real.symm.trans root_)
  have names : loopedWorkspace.names linkedRoot = ["a.js".toList, "loop".toList] := by cbv
  have meets : Meets (passesWithin loopedWorkspace {} linkedRoot) loopedWorkspace f linkedRoot
      (linkedRoot.child "loop") := ⟨_, _, .here, names ▸ by simp, rfl⟩
  obtain ⟨real, found⟩ := (passable (by cbv) _ meets).real (by cbv)
  have loop : loopedWorkspace.realPathWithin {} (linkedRoot.child "loop") = .error .linkLoop := by
    cbv
  rw [loop] at found
  cases found

/-- A workspace with a file, and a link to the workspace. -/
def deepWorkspace : FileTree :=
  { nodes :=
      [(["ws".toList], .directory),
        (["ws".toList, "a.js".toList], .file (Text.encode "// @group x")),
        (["ws".toList, "l".toList], .link ".")] }

/-- The walk goes down through the link until a path is too long. -/
example : filesWithin deepWorkspace { path := 10 } ⟨[], []⟩ linkedRoot = .error .nameTooLong := by
  cbv

end CodeAtlas.Workspace
