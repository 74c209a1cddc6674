/-
# Proofs.Workspace.IgnoreFile -- which ignore files a scan survives

The intended rule: a line that is no pattern says nothing, and so does a file that cannot be opened
or is no text (`intendedFilter`).  What a scan does is this: it leaves out what the rules of the
lines say if each line is a pattern (`filter_eq_ok_iff`), and fails otherwise.  So a scan is as
intended exactly if it survives the ignore file and its walk can be made (`scansAsIntended_iff`).
The walk itself fails only as the look at an entry does (`exists_passes_eq_error`), so for one reason
whatever the rules are: a link that leads back to itself (`eq_linkLoop_of_files`).
-/
import CodeAtlas.Proofs.Workspace.Order
import CodeAtlas.Proofs.Workspace.Scan

namespace CodeAtlas.Workspace

set_option autoImplicit false

variable {t : FileTree} {path root : Path} {o : Options} {f : Filter} {line : Text}
  {lines : List Text} {rules : List Rule}

/-! ## Lines -/

/-- The line can be told to be a rule, or none. -/
def IsPattern (line : Text) : Prop := ∃ r, readRule line = .ok r

instance : DecidablePred IsPattern := fun line =>
  decidable_of_iff ((readRule line).toOption.isSome = true) <| by
    rw [Option.isSome_iff_exists, IsPattern]
    simp only [Run.toOption_eq_some_iff]

/-- The rule on a line; a line that is no pattern has none. -/
def rule? (line : Text) : Option Rule := (readRule line).toOption.join

theorem IsPattern.readRule_eq (pattern : IsPattern line) : readRule line = .ok (rule? line) := by
  obtain ⟨r, read⟩ := pattern
  rw [rule?, read]
  rfl

/-- **Lines give rules exactly if each of them is a pattern**, and then each its own. -/
theorem readRules_eq_ok_iff :
    readRules lines = .ok rules ↔
      (∀ line ∈ lines, IsPattern line) ∧ rules = lines.filterMap rule? := by
  have patterns : (∀ line ∈ lines, IsPattern line) →
      readRules lines = .ok (lines.filterMap rule?) := by
    intro each
    have run : lines.mapM readRule = .ok (lines.map rule?) := by
      rw [Run.mapM_eq_ok_iff, List.forall₂_map_right_iff, List.forall₂_same]
      exact fun line member => (each line member).readRule_eq
    rw [readRules, run]
    change Except.ok ((lines.map rule?).filterMap id) = _
    rw [List.filterMap_map, Function.id_comp]
  constructor
  · intro read
    obtain ⟨found, run, -⟩ := Run.map_eq_ok_iff.mp read
    have each : ∀ line ∈ lines, IsPattern line := Run.exists_mapM_iff.mp ⟨found, run⟩
    exact ⟨each, Except.ok.inj (read.symm.trans (patterns each))⟩
  · rintro ⟨each, rfl⟩
    exact patterns each

theorem isPattern_of_mem_defaultRules : ∀ line ∈ defaultRules, IsPattern line := by
  decide +kernel

/-! ## Files -/

/-- The lines of the ignore file; one that cannot be opened or is no text has none. -/
def spelledLines (t : FileTree) (root : Path) : List Text := (ignoreLines t root).toOption.getD []

/-- **What a scan should leave out**: what the rules of the lines say that have one. -/
def intendedFilter (t : FileTree) (root : Path) (o : Options) : Filter where
  skipped := skippedDirectories ++ o.extraSkipped
  rules := (defaultRules ++ spelledLines t root).filterMap rule?

/-- **The ignore file does no harm**: it cannot be opened, or it is a text whose lines are
patterns. -/
def Survivable (t : FileTree) (root : Path) : Prop :=
  (∃ fault, t.read (root.child ignoreFileName) = .error fault) ∨
    ∃ content text, t.read (root.child ignoreFileName) = .ok content ∧
      Text.decode? content = some text ∧
      ∀ line ∈ Text.lines (Text.withLineFeeds text), IsPattern line

theorem survivable_iff : Survivable t root ↔
    ∃ lines, ignoreLines t root = .ok lines ∧ ∀ line ∈ lines, IsPattern line := by
  rw [Survivable, ignoreLines, FileTree.readText]
  cases read : t.read (root.child ignoreFileName) with
  | error fault =>
      refine iff_of_true (.inl ⟨fault, rfl⟩) ⟨[], ?_, by simp⟩
      cases fault with
      | undecodable => exact absurd read FileTree.read_ne_undecodable
      | _ => rfl
  | ok content =>
      rw [Run.ok_bind]
      cases decoded : Text.decode? content with
      | none =>
          refine iff_of_false ?_ ?_
          · rintro (⟨fault, ⟨⟩⟩ | ⟨content', text, ⟨⟩, is, -⟩)
            rw [decoded] at is
            cases is
          · rintro ⟨lines, ⟨⟩, -⟩
      | some text =>
          constructor
          · rintro (⟨fault, ⟨⟩⟩ | ⟨content', text', ⟨⟩, is, each⟩)
            rw [decoded] at is
            cases is
            exact ⟨_, rfl, each⟩
          · rintro ⟨lines, same, each⟩
            cases same
            exact .inr ⟨content, text, rfl, decoded, each⟩

/-- **A scan leaves out what it should exactly if the ignore file does no harm**, and fails before its
walk otherwise. -/
theorem filter_eq_ok_iff (respects : o.respectIgnoreFile = true) :
    filter t root o = .ok f ↔ Survivable t root ∧ f = intendedFilter t root o := by
  rw [filter, if_pos respects, survivable_iff, intendedFilter, spelledLines]
  simp only [Run.bind_eq_ok_iff, readRules_eq_ok_iff, List.forall_mem_append]
  constructor
  · rintro ⟨own, spelled, rules, ⟨⟨-, each⟩, rfl⟩, same⟩
    rw [spelled]
    exact ⟨⟨own, rfl, each⟩, (Except.ok.inj same).symm⟩
  · rintro ⟨⟨own, spelled, each⟩, rfl⟩
    rw [spelled]
    exact ⟨own, rfl, _, ⟨⟨isPattern_of_mem_defaultRules, each⟩, rfl⟩, rfl⟩

/-! ## Walks -/

theorem eq_linkLoop_of_realPath {item : Path} {fault : Fault}
    (stopped : t.realPath item = .error fault) : fault = .linkLoop := by
  rw [FileTree.realPath] at stopped
  split at stopped
  · cases stopped
    rfl
  · cases stopped

theorem eq_linkLoop_of_leadsOut {item : Path} {fault : Fault}
    (stopped : leadsOut t root item = .error fault) : fault = .linkLoop := by
  rw [leadsOut] at stopped
  split at stopped
  · cases real : t.realPath item with
    | ok place =>
        rw [real] at stopped
        cases stopped
    | error fault' =>
        rw [real] at stopped
        cases stopped
        exact eq_linkLoop_of_realPath real
  · cases stopped

/-- **A walk fails only as the look at an entry does.** -/
theorem exists_passes_eq_error {passes : Path → Except Fault Bool} {depth : Nat} {current : Path}
    {fault : Fault} (stopped : filesFrom passes t f root depth current = .error fault) :
    ∃ item, passes item = .error fault := by
  induction depth generalizing current fault with
  | zero => cases stopped
  | succ depth ih =>
      rw [filesFrom_succ] at stopped
      cases run : (t.names current).mapM
          (entryFiles passes t f root (filesFrom passes t f root depth) current) with
      | ok lists =>
          rw [run] at stopped
          cases stopped
      | error fault' =>
          rw [run] at stopped
          cases stopped
          obtain ⟨name, -, here⟩ := Run.exists_of_mapM_eq_error run
          -- Of one entry only the look at a link and the walk below can fail.
          rcases entryFiles_ways passes t f root current name with
            ⟨fault', looked, all⟩ | ⟨-, all⟩ | ⟨-, -, l, all⟩
          · rw [all] at here
            cases here
            exact ⟨_, looked⟩
          · rw [all] at here
            exact ih here
          · rw [all] at here
            cases here

/-- **A walk fails for no other reason than a link that leads back to itself.** -/
theorem eq_linkLoop_of_files {fault : Fault} (stopped : files t f root = .error fault) :
    fault = .linkLoop := by
  obtain ⟨item, looked⟩ := exists_passes_eq_error stopped
  exact eq_linkLoop_of_leadsOut looked

/-! ## Scans -/

/-- **The scan gathers what is found in the files that should not be left out.** -/
def ScansAsIntended (t : FileTree) (path : Path) (o : Options) : Prop :=
  ∃ root fs, t.realPath path = .ok root ∧ files t (intendedFilter t root o) root = .ok fs ∧
    scan t path o = .ok (gathered (distinctFindings (fs.flatMap (foundIn t))))

/-- A scan that succeeds has survived the ignore file, and is as intended. -/
theorem of_scan {c : Corpus} (real : t.realPath path = .ok root)
    (respects : o.respectIgnoreFile = true) (scanned : scan t path o = .ok c) :
    Survivable t root ∧ ∃ fs, files t (intendedFilter t root o) root = .ok fs ∧
      c = gathered (distinctFindings (fs.flatMap (foundIn t))) := by
  obtain ⟨root', f, fs, walked, same⟩ := scan_eq_ok_iff.mp scanned
  obtain rfl : root = root' := Except.ok.inj (real.symm.trans walked.real)
  obtain ⟨survivable, rfl⟩ := (filter_eq_ok_iff respects).mp walked.filtered
  exact ⟨survivable, fs, walked.listed, same⟩

/-- **Which ignore files a scan survives.**  Nothing is raised exactly if the ignore file does no harm
and the walk can be made, and then the scan is as intended.  A walk that cannot be made is stopped
by a link that leads back to itself, so where there are no links it can. -/
theorem scansAsIntended_iff (real : t.realPath path = .ok root)
    (respects : o.respectIgnoreFile = true) :
    ((∃ c, scan t path o = .ok c) ↔
      Survivable t root ∧ ∃ fs, files t (intendedFilter t root o) root = .ok fs) ∧
    (ScansAsIntended t path o ↔
      Survivable t root ∧ ∃ fs, files t (intendedFilter t root o) root = .ok fs) ∧
    (∀ fault, files t (intendedFilter t root o) root = .error fault → fault = .linkLoop) ∧
    ∀ place, root = ⟨1, place⟩ → FileTree.Regular t place →
      ∃ fs, files t (intendedFilter t root o) root = .ok fs := by
  have intended : Survivable t root →
      ∀ fs, files t (intendedFilter t root o) root = .ok fs →
        scan t path o = .ok (gathered (distinctFindings (fs.flatMap (foundIn t)))) := by
    intro survivable fs listed
    have filtered := (filter_eq_ok_iff respects).mpr ⟨survivable, rfl⟩
    exact scan_eq_ok_iff.mpr ⟨root, _, fs, ⟨real, filtered, listed⟩, rfl⟩
  refine ⟨?_, ?_, fun fault => eq_linkLoop_of_files, ?_⟩
  · constructor
    · rintro ⟨c, scanned⟩
      obtain ⟨survivable, fs, listed, -⟩ := of_scan real respects scanned
      exact ⟨survivable, fs, listed⟩
    · rintro ⟨survivable, fs, listed⟩
      exact ⟨_, intended survivable fs listed⟩
  · constructor
    · rintro ⟨root', fs, -, -, scanned⟩
      obtain ⟨survivable, fs', listed, -⟩ := of_scan real respects scanned
      exact ⟨survivable, fs', listed⟩
    · rintro ⟨survivable, fs, listed⟩
      exact ⟨root, fs, real, listed, intended survivable fs listed⟩
  · rintro place rfl regular
    obtain ⟨fs, listed, -⟩ := files_spec (intendedFilter t ⟨1, place⟩ o) regular
    exact ⟨fs, listed⟩

/-! ### A small workspace -/

/-- A workspace with these bytes in its ignore file, and a source file. -/
def workspaceWith (ignored : Bytes) : FileTree :=
  { nodes :=
      [(["ws".toList], .directory),
        (["ws".toList, ".gitignore".toList], .file ignored),
        (["ws".toList, "a.js".toList], .file (Text.encode "// @group x"))] }

theorem regular_workspaceWith (ignored : Bytes) :
    FileTree.Regular (workspaceWith ignored) ["ws".toList] := by
  refine .of_nodes ((FileTree.grounded_nil _).concat rfl) ?_ ?_
  · simp only [workspaceWith, List.forall_mem_cons]
    exact ⟨by decide, by decide, by decide, by simp⟩
  · simp [workspaceWith]

theorem realPath_workspaceWith (ignored : Bytes) :
    (workspaceWith ignored).realPath ⟨1, ["ws".toList]⟩ = .ok ⟨1, ["ws".toList]⟩ :=
  FileTree.realPath_of_grounded (regular_workspaceWith ignored).root_named
    (regular_workspaceWith ignored).grounded

theorem read_workspaceWith (ignored : Bytes) :
    (workspaceWith ignored).read (Path.child ⟨1, ["ws".toList]⟩ ignoreFileName) = .ok ignored := by
  rw [read_ignoreFile (regular_workspaceWith ignored)]
  rfl

/-- A comment, a class that is not closed, a blank line and a rule are survived. -/
theorem scansAsIntended_iff_mixed :
    ScansAsIntended (workspaceWith (Text.encode "# old\n[abc\n\nold/\n")) ⟨1, ["ws".toList]⟩ {} := by
  have real := realPath_workspaceWith (Text.encode "# old\n[abc\n\nold/\n")
  obtain ⟨-, intended, -, walks⟩ := scansAsIntended_iff (o := {}) real rfl
  refine intended.mpr ⟨.inr ?_, walks _ rfl (regular_workspaceWith _)⟩
  exact ⟨_, _, read_workspaceWith _, Text.decode?_encode _, by decide +kernel⟩

/-- The lines of an ignore file that a scan has survived. -/
theorem of_scansAsIntended_workspaceWith {ignored : Bytes}
    (intended : ScansAsIntended (workspaceWith ignored) ⟨1, ["ws".toList]⟩ {}) :
    ∃ text, Text.decode? ignored = some text ∧
      ∀ line ∈ Text.lines (Text.withLineFeeds text), IsPattern line := by
  obtain ⟨root, fs, -, -, scanned⟩ := intended
  obtain ⟨survivable, -⟩ := of_scan (realPath_workspaceWith ignored) rfl scanned
  rw [Survivable, read_workspaceWith] at survivable
  rcases survivable with ⟨fault, ⟨⟩⟩ | ⟨content, text, ⟨⟩, decoded, each⟩
  exact ⟨text, decoded, each⟩

/-- A lone exclamation mark stops a scan, and so do bytes that are no text. -/
theorem not_scansAsIntended_mark :
    ¬ ScansAsIntended (workspaceWith (Text.encode "!\n")) ⟨1, ["ws".toList]⟩ {} ∧
      ¬ ScansAsIntended (workspaceWith [0xff]) ⟨1, ["ws".toList]⟩ {} := by
  constructor
  · intro intended
    obtain ⟨text, decoded, each⟩ := of_scansAsIntended_workspaceWith intended
    rw [Text.decode?_encode] at decoded
    cases decoded
    exact absurd each (by decide +kernel)
  · intro intended
    obtain ⟨text, decoded, -⟩ := of_scansAsIntended_workspaceWith intended
    have undecodable : Text.decode? [0xff] = none := by decide +kernel
    rw [undecodable] at decoded
    cases decoded

end CodeAtlas.Workspace
