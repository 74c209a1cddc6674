/-
# Proofs.CommandLine.Scan -- scanning a workspace, and then one file after the other

A workspace is scanned once, and after that its files are edited one by one, each being scanned
again as soon as it has been edited (`Reached`).  At any time the next edit can be taken in as well,
and if the settings are those of the first scan, the files of the store are what another scan of the
whole workspace would make them, up to the order of types and of groups (`rescans_agree`).

A scan of one file does not read the settings.  When they are kept in the workspace, they may be
among what is edited, and then another scan may find more files, or fewer
(`not_forall_rescans_agree`).  Settings that stand outside of the workspace never change
(`Kept.read_settings`).

The command is taken apart into what it asks of the tree and what it has the store do
(`perform_scan_all`, `perform_scan_file`); the rest is the invariant that the store is up to date
and that nothing changes outside of the workspace (`Kept`).
-/
import CodeAtlas.CommandLine.Run
import CodeAtlas.Proofs.CommandLine.Session
import CodeAtlas.Proofs.FileTree.Resolvable
import CodeAtlas.Proofs.Store.Refresh
import CodeAtlas.Proofs.Workspace.Sources

namespace CodeAtlas.CommandLine

set_option autoImplicit false

open Store (Agree Describes FitsRoom Fits Holds IsScanned UpToDate)
open Workspace (Options)

variable {s : Surroundings} {root : Place} {o : Options} {t t' t₀ : FileTree} {respect : Bool}
  {workspace path : Path} {outcome : Outcome}

/-! ## What the command does -/

theorem perform_openStore {store : Store} :
    (Session.openStore s workspace).perform t = (.ok store, t') ↔
      ∃ real, t.realPath (s.here ++ workspace) = .ok real ∧ store = ⟨s.here, real⟩ ∧ t' = t := by
  rw [Session.openStore]
  simp only [Session.perform_bind, Session.perform_ask, Session.perform_pure]
  constructor
  · rintro ⟨real, t₁, ⟨leads, rfl⟩, rfl, rfl⟩
    exact ⟨real, leads, rfl, rfl⟩
  · rintro ⟨real, leads, rfl, rfl⟩
    exact ⟨real, t', ⟨leads, rfl⟩, rfl, rfl⟩

theorem perform_sourceFile {file : Path} :
    (sourceFile s path).perform t = (.ok file, t') ↔
      t.realPath (s.here ++ path) = .ok file ∧
        Language.isSupported (Language.fileType file.toText) = true ∧ t' = t := by
  rw [sourceFile]
  simp only [Session.perform_bind, Session.perform_ask]
  constructor
  · rintro ⟨real, t₁, ⟨leads, rfl⟩, rest⟩
    cases supported : Language.isSupported (Language.fileType real.toText) with
    | false =>
        rw [supported] at rest
        obtain ⟨_, _, refused, -⟩ := Session.perform_bind.mp rest
        exact absurd refused Session.perform_refuse
    | true =>
        rw [supported] at rest
        obtain ⟨rfl, rfl⟩ := Session.perform_pure.mp rest
        exact ⟨leads, supported, rfl⟩
  · rintro ⟨leads, supported, rfl⟩
    refine ⟨file, t', ⟨leads, rfl⟩, ?_⟩
    rw [supported]
    exact Session.perform_pure.mpr ⟨rfl, rfl⟩

theorem perform_scanOptions :
    (scanOptions s respect).perform t = (.ok o, t') ↔
      (∃ settings own, Settings.load s.settingsFile Settings.scanSection t = .ok settings ∧
        Options.ofEntries settings = .ok own ∧
        o = { own with respectIgnoreFile := own.respectIgnoreFile && respect }) ∧ t' = t := by
  rw [scanOptions]
  simp only [Session.perform_bind, Session.perform_ask, Session.perform_lift, Session.perform_pure]
  constructor
  · rintro ⟨settings, t₁, ⟨loaded, rfl⟩, own, t₂, ⟨read, rfl⟩, rfl, rfl⟩
    exact ⟨⟨settings, own, loaded, read, rfl⟩, rfl⟩
  · rintro ⟨⟨settings, own, loaded, read, rfl⟩, rfl⟩
    exact ⟨settings, t', ⟨loaded, rfl⟩, own, t', ⟨read, rfl⟩, rfl, rfl⟩

/-- **A scan of the whole workspace** has the store of its real place scan it, with the options of
the settings. -/
theorem perform_scan_all :
    (∃ outcome, (scan s workspace respect none).perform t = (.ok outcome, t')) ↔
      ∃ real o answer, t.realPath (s.here ++ workspace) = .ok real ∧
        (scanOptions s respect).perform t = (.ok o, t) ∧
        (({ here := s.here, workspace := real } : Store).refresh o).perform t =
          (.ok answer, t') := by
  rw [scan]
  simp only [Session.perform_bind, perform_openStore, Session.perform_run, Session.perform_pure]
  constructor
  · rintro ⟨outcome, store, _, ⟨real, leads, rfl, rfl⟩, o, t₁, options, answer, t₂, done, -, rfl⟩
    obtain rfl := (perform_scanOptions.mp options).2
    exact ⟨real, o, answer, leads, options, done⟩
  · rintro ⟨real, o, answer, leads, options, done⟩
    exact ⟨_, _, t, ⟨real, leads, rfl, rfl⟩, o, t, options, answer, t', done, rfl, rfl⟩

/-- **A scan of one file** has the store of the workspace scan its real place, if its type is known.
-/
theorem perform_scan_file :
    (∃ outcome, (scan s workspace respect (some path)).perform t = (.ok outcome, t')) ↔
      ∃ real file answer, t.realPath (s.here ++ workspace) = .ok real ∧
        t.realPath (s.here ++ path) = .ok file ∧
        Language.isSupported (Language.fileType file.toText) = true ∧
        (({ here := s.here, workspace := real } : Store).refreshFile file).perform t =
          (.ok answer, t') := by
  rw [scan]
  simp only [Session.perform_bind, perform_openStore, Session.perform_run, perform_sourceFile,
    Session.perform_pure]
  constructor
  · rintro ⟨outcome, store, _, ⟨real, leads, rfl, rfl⟩, file, _, ⟨here, supported, rfl⟩, answer,
      t₁, done, -, rfl⟩
    exact ⟨real, file, answer, leads, here, supported, done⟩
  · rintro ⟨real, file, answer, leads, here, supported, done⟩
    exact ⟨_, _, t, ⟨real, leads, rfl, rfl⟩, file, t, ⟨here, supported, rfl⟩, answer, t', done, rfl,
      rfl⟩

/-- The store of the workspace at a place. -/
def storeAt (s : Surroundings) (root : Place) : Store := { here := s.here, workspace := ⟨1, root⟩ }

/-- **A scan changes nothing outside of the store**, whether of the workspace or of one file. -/
theorem node?_of_scan {file? : Option Path} {p : Place} (regular : t.Regular root)
    (leads : t.realPath (s.here ++ workspace) = .ok ⟨1, root⟩)
    (done : (scan s workspace respect file?).perform t = (.ok outcome, t'))
    (outside : ¬Store.storePlace root <+: p) : t'.node? p = t.node? p := by
  have saved : ∃ c index, ((storeAt s root).save c).perform t = (.ok index, t') := by
    cases file? with
    | none =>
        obtain ⟨real, o, answer, here, -, refreshed⟩ := perform_scan_all.mp ⟨_, done⟩
        obtain rfl := Except.ok.inj (here.symm.trans leads)
        exact ⟨_, _, (Store.perform_refresh.mp refreshed).2⟩
    | some path =>
        obtain ⟨real, file, answer, here, -, -, refreshed⟩ := perform_scan_file.mp ⟨_, done⟩
        obtain rfl := Except.ok.inj (here.symm.trans leads)
        obtain ⟨gs, saved, -, -, -, saved⟩ := Store.perform_refreshFile.mp refreshed
        exact ⟨_, _, saved⟩
  obtain ⟨c, index, saved⟩ := saved
  obtain ⟨-, ready, rfl⟩ := (Store.perform_save_of_regular regular rfl).mp saved
  have other : ∀ rest, p ≠ Store.storePlace root ++ rest := by
    rintro rest rfl
    exact outside (List.prefix_append _ _)
  rw [Store.node?_withFiles ready, Store.indexPlace, Store.groupsPlace, if_neg (other _),
    if_neg (other _), if_neg (by simpa using other [])]

/-! ## Edits -/

/-- The workspace that is asked for is the one at `root`, and the settings give these options. -/
structure Asks (s : Surroundings) (root : Place) (o : Options) (t : FileTree) (workspace : Path)
    (respect : Bool) : Prop where
  workspace : t.realPath (s.here ++ workspace) = .ok ⟨1, root⟩
  options : (scanOptions s respect).perform t = (.ok o, t)

/-- The first scan can be made, and writes the files of the store and nothing else. -/
theorem Asks.exists_scan {f : Workspace.Filter} (asks : Asks s root o t workspace respect)
    (regular : t.Regular root) (fits : Fits t root) (ready : Store.Ready t root)
    (filtered : Workspace.filter t ⟨1, root⟩ o = .ok f) :
    ∃ outcome groups index, (scan s workspace respect none).perform t =
      (.ok outcome, Store.withFiles t root groups index) := by
  obtain ⟨c, refreshed, -⟩ :=
    Store.exists_refresh (s := storeAt s root) rfl regular fits ready filtered
  obtain ⟨outcome, done⟩ := perform_scan_all.mpr ⟨_, _, _, asks.workspace, asks.options, refreshed⟩
  exact ⟨outcome, _, _, done⟩

/-- **A tree that is reached** from another one by a scan of the workspace, and edits after it: each
writes one file anew that is scanned, and has it scanned again. -/
inductive Reached (s : Surroundings) (root : Place) (o : Options) (t₀ : FileTree) : FileTree → Prop
  | scanned {t : FileTree} {workspace : Path} {respect : Bool} {outcome : Outcome}
      (asks : Asks s root o t₀ workspace respect)
      (done : (scan s workspace respect none).perform t₀ = (.ok outcome, t)) : Reached s root o t₀ t
  | edited {t edited t' : FileTree} {file workspace path : Path} {content : Bytes} {respect : Bool}
      {outcome : Outcome} (reached : Reached s root o t₀ t) (scanned : IsScanned root o t file)
      (room : FitsRoom content) (written : t.write file content = .ok edited)
      (workspace_ : t₀.realPath (s.here ++ workspace) = .ok ⟨1, root⟩)
      (path_ : t₀.realPath (s.here ++ path) = .ok file)
      (done : (scan s workspace respect (some path)).perform edited = (.ok outcome, t')) :
      Reached s root o t₀ t'

/-- **What is kept over all edits**: the store is up to date, and nothing changes outside of the
workspace. -/
structure Kept (s : Surroundings) (root : Place) (o : Options) (t₀ t : FileTree) : Prop where
  upToDate : ∃ c, UpToDate (storeAt s root) o root t c
  outside : ∀ p, ¬root <+: p → t.node? p = t₀.node? p

/-- The links are those that were there, since there are none in the workspace. -/
theorem node?_eq_link_iff (regular₀ : t₀.Regular root) (regular : t.Regular root)
    (outside : ∀ p, ¬root <+: p → t.node? p = t₀.node? p) (p : Place) (target : Text) :
    t₀.node? p = some (.link target) ↔ t.node? p = some (.link target) := by
  by_cases below : root <+: p
  · obtain ⟨rest, rfl⟩ := below
    exact iff_of_false (regular₀.notLink rest target) (regular.notLink rest target)
  · rw [outside p below]

/-- So the workspace has its real path still. -/
theorem realPath_workspace (regular₀ : t₀.Regular root) (regular : t.Regular root)
    (outside : ∀ p, ¬root <+: p → t.node? p = t₀.node? p)
    (leads : t₀.realPath path = .ok ⟨1, root⟩) : t.realPath path = .ok ⟨1, root⟩ := by
  refine FileTree.realPath_congr (node?_eq_link_iff regular₀ regular outside) leads ?_
  rw [FileTree.locate_of_grounded regular.root_named regular.grounded]
  rintro ⟨⟩

/-- **A file that is scanned can be written anew**: then it is the only change, and its path leads
to it. -/
theorem exists_put_of_isScanned {file : Path} (regular : t.Regular root)
    (scanned : IsScanned root o t file) (content : Bytes) :
    ∃ names, file = ⟨1, root ++ names⟩ ∧ names ≠ [] ∧
      t.write file content = .ok (t.put (root ++ names) (.file content)) ∧
      (t.put (root ++ names) (.file content)).Regular root ∧
      ∃ place, (t.put (root ++ names) (.file content)).locate file = .ok place := by
  obtain ⟨f, fs, -, listed, walked, -⟩ := scanned
  obtain ⟨l, is, -, members⟩ := Workspace.files_spec f regular
  obtain rfl := Except.ok.inj (listed.symm.trans is)
  obtain ⟨names, visits, rfl⟩ := (members file).mp walked
  obtain ⟨old, node, -, written⟩ := visits.exists_read regular
  obtain ⟨d, name, _, whole, named, grounded, entry, node'⟩ := visits.exists_entry regular
  have located : t.locate ⟨1, root ++ names⟩ = .ok (d ++ [name]) := by
    have first : FileTree.Leads t true FileTree.maxLinks [] d d :=
      FileTree.leads_of_locateFrom (FileTree.locateFrom_of_grounded named grounded)
    rw [whole]
    exact FileTree.locateFrom_of_leads
      (FileTree.leads_concat first grounded.self entry node' (by rintro - target ⟨⟩))
  have keeps := FileTree.keeps_put (FileTree.isFree_of_file node) content
  refine ⟨names, rfl, visits.ne_nil, written content, Store.regular_edit regular visits content,
    d ++ [name], FileTree.locateFrom_of_leads ((FileTree.leads_of_locateFrom located).mono keeps)⟩

/-- **An edit can be taken in**, and what is to be kept is kept. -/
theorem Kept.edit {file : Path} {content : Bytes} (regular₀ : t₀.Regular root)
    (kept : Kept s root o t₀ t) (scanned : IsScanned root o t file) (room : FitsRoom content) :
    ∃ edited, t.write file content = .ok edited ∧ ∀ workspace path respect,
      t₀.realPath (s.here ++ workspace) = .ok ⟨1, root⟩ → t₀.realPath (s.here ++ path) = .ok file →
      ∃ outcome t', (scan s workspace respect (some path)).perform edited = (.ok outcome, t') ∧
        Kept s root o t₀ t' := by
  obtain ⟨⟨c, upToDate⟩, outside⟩ := kept
  obtain ⟨edited, answer, t', written, refreshed, upToDate'⟩ :=
    upToDate.exists_refreshFile rfl scanned room
  obtain ⟨names, rfl, solid, put, regular', place, located⟩ :=
    exists_put_of_isScanned upToDate.regular scanned content
  obtain rfl := Except.ok.inj (written.symm.trans put)
  have outside' : ∀ p, ¬root <+: p →
      (t.put (root ++ names) (.file content)).node? p = t₀.node? p := by
    intro p away
    rw [FileTree.node?_put_of_ne t (by simp [solid]) _ (by rintro rfl; simp at away), outside p away]
  refine ⟨_, written, fun workspace path respect leads here => ?_⟩
  have leads' := realPath_workspace regular₀ regular' outside' leads
  have here' := FileTree.realPath_congr (node?_eq_link_iff regular₀ regular' outside') here
    (by rw [located]; rintro ⟨⟩)
  obtain ⟨-, -, -, -, -, supported⟩ := scanned
  obtain ⟨outcome, done⟩ :=
    perform_scan_file.mpr ⟨_, _, answer, leads', here', supported, refreshed⟩
  refine ⟨outcome, t', done, ⟨_, upToDate'⟩, fun p away => ?_⟩
  rw [node?_of_scan regular' leads' done fun below => away ((List.prefix_append _ _).trans below),
    outside' p away]

theorem Reached.kept (regular : t₀.Regular root) (fits : Fits t₀ root)
    (reached : Reached s root o t₀ t) : Kept s root o t₀ t := by
  induction reached with
  | scanned asks done =>
      obtain ⟨real, o', answer, leads, options, refreshed⟩ := perform_scan_all.mp ⟨_, done⟩
      obtain rfl := Except.ok.inj (leads.symm.trans asks.workspace)
      cases options.symm.trans asks.options
      refine ⟨⟨_, Store.upToDate_of_refresh rfl regular fits refreshed⟩, fun p away => ?_⟩
      exact node?_of_scan regular leads done fun below => away ((List.prefix_append _ _).trans below)
  | edited reached scanned room written workspace path done ih =>
      obtain ⟨edited, written', rescan⟩ := ih.edit regular scanned room
      obtain rfl := Except.ok.inj (written'.symm.trans written)
      obtain ⟨outcome, t', done', kept⟩ := rescan _ _ _ workspace path
      cases done'.symm.trans done
      exact kept

/-- Settings that read the same are the same. -/
theorem load_congr {file : Path} {section_ : Text} (same : t.read file = t₀.read file) :
    Settings.load file section_ t = Settings.load file section_ t₀ := by
  rw [Settings.load, Settings.load, Settings.readAll, Settings.readAll, FileTree.readText,
    FileTree.readText, same]

/-- With the same settings, what has been asked for at first is asked for still. -/
theorem Kept.asks (regular₀ : t₀.Regular root) (kept : Kept s root o t₀ t)
    (asks : Asks s root o t₀ workspace respect)
    (same : t.read s.settingsFile = t₀.read s.settingsFile) :
    Asks s root o t workspace respect := by
  obtain ⟨⟨c, upToDate⟩, outside⟩ := kept
  refine ⟨realPath_workspace regular₀ upToDate.regular outside asks.workspace, ?_⟩
  obtain ⟨⟨settings, own, loaded, read, is⟩, -⟩ := perform_scanOptions.mp asks.options
  exact perform_scanOptions.mpr ⟨⟨settings, own, (load_congr same).trans loaded, read, is⟩, rfl⟩

/-- **Settings outside of the workspace are never changed**: those of a file in a directory there, or
none if there is no such file. -/
theorem Kept.read_settings {d : Place} {name : Text} (kept : Kept s root o t₀ t)
    (settings : s.settingsFile = ⟨1, d ++ [name]⟩) (named : FileTree.Named d)
    (grounded : FileTree.Grounded t₀ d) (entry : FileTree.IsEntryName name)
    (notLink : ∀ target, t₀.node? (d ++ [name]) ≠ some (.link target))
    (away : ¬root <+: d ++ [name]) : t.read s.settingsFile = t₀.read s.settingsFile := by
  have same : ∀ p, p <+: d ++ [name] → t.node? p = t₀.node? p := fun p above =>
    kept.outside p fun below => away (below.trans above)
  have grounded' : FileTree.Grounded t d := fun p above =>
    (same p (above.trans (List.prefix_append _ _))).trans (grounded p above)
  have node := same _ List.prefix_rfl
  rw [settings, FileTree.read_concat named grounded entry notLink,
    FileTree.read_concat named grounded' entry (node ▸ notLink), node]

/-- Without an ignore file, none of these is left out. -/
theorem exists_filter_of_absent (regular : t.Regular root)
    (absent : t.node? (root ++ [Workspace.ignoreFileName]) = none) :
    ∃ f, Workspace.filter t ⟨1, root⟩ {} = .ok f ∧ f.skips "src" = false ∧
      ∀ path ∈ ["a.py".toList, "config.toml".toList, "src/".toList, "src/a.js".toList],
        Workspace.isIgnored f.rules path = false := by
  have own : Workspace.ignoreLines t ⟨1, root⟩ = .ok [] := by
    rw [Workspace.ignoreLines, FileTree.readText, Workspace.read_ignoreFile regular, absent]
    rfl
  have wanted : (Workspace.readRules Workspace.defaultRules).toOption.map (fun rules =>
      ["a.py".toList, "config.toml".toList, "src/".toList, "src/a.js".toList].any
        (Workspace.isIgnored rules)) = some false := by
    decide +kernel
  obtain ⟨rules, read, none_⟩ := Option.map_eq_some_iff.mp wanted
  refine ⟨{ skipped := Workspace.skippedDirectories, rules }, ?_, rfl, ?_⟩
  · rw [Workspace.filter, if_pos rfl, own, Run.ok_bind]
    simp only [List.append_nil, Run.toOption_eq_some_iff.mp read, Run.ok_bind]
    rfl
  · intro path member
    simpa using List.any_eq_false.mp none_ path member

/-- Those in the workspace itself are scanned. -/
theorem isScanned_of_absent {name : Text} {content : Bytes} (regular : t.Regular root)
    (absent : t.node? (root ++ [Workspace.ignoreFileName]) = none)
    (node : t.node? (root ++ [name]) = some (.file content))
    (usual : name ∈ ["a.py".toList, "config.toml".toList])
    (supported : Language.isSupported
      (Language.fileType (Path.toText ⟨1, root ++ [name]⟩)) = true) :
    IsScanned root {} t ⟨1, root ++ [name]⟩ := by
  obtain ⟨f, filtered, -, wanted⟩ := exists_filter_of_absent regular absent
  obtain ⟨fs, listed, -, members⟩ := Workspace.files_spec f regular
  have shown : Path.toText ⟨0, [name]⟩ = name := by
    simp only [List.mem_cons, List.not_mem_nil, or_false] at usual
    rcases usual with rfl | rfl
    all_goals rfl
  have visits : Workspace.Visits t f root [] [name] := by
    refine .file (by rwa [List.append_nil]) ?_
    rw [List.nil_append, shown]
    exact wanted name (List.mem_append_left _ usual)
  exact ⟨f, fs, filtered, listed, (members _).mpr ⟨_, visits, rfl⟩, supported⟩

/-- A workspace with one source file. -/
def sourceWorkspace : FileTree :=
  { nodes :=
      [(["ws".toList], .directory),
        (["ws".toList, "a.py".toList], .file (Text.encode "# @group Auth: log in"))] }

def sourceRoot : Place := ["ws".toList]

def source : Path := ⟨1, sourceRoot ++ ["a.py".toList]⟩

/-- The settings file is not there. -/
def sourceSurroundings : Surroundings where
  here := ⟨1, []⟩
  settingsFile := ⟨1, ["settings.toml".toList]⟩
  clock := { changed := fun _ => none, now := .whole 0 }

theorem regular_sourceWorkspace : sourceWorkspace.Regular sourceRoot :=
  .of_nodes ((FileTree.grounded_nil _).concat (by decide)) (by decide) (by simp [sourceWorkspace])

theorem fits_sourceWorkspace : Fits sourceWorkspace sourceRoot := by
  refine Store.fits_of_nodes fun e member content is => Store.fitsRoom_of_length ?_
  rcases List.mem_cons.mp member with rfl | member
  · cases is
  · rw [List.mem_singleton.mp member] at is
    cases is
    decide

theorem ready_sourceWorkspace : Store.Ready sourceWorkspace sourceRoot :=
  ⟨.inr (by decide), by decide, by decide⟩

theorem isScanned_source : IsScanned sourceRoot {} sourceWorkspace source :=
  isScanned_of_absent regular_sourceWorkspace (by decide) rfl (by decide) (by decide)

/-- Without settings the defaults hold. -/
theorem asks_sourceSurroundings :
    Asks sourceSurroundings sourceRoot {} sourceWorkspace ⟨1, sourceRoot⟩ true := by
  constructor
  · exact FileTree.realPath_of_grounded regular_sourceWorkspace.root_named
      regular_sourceWorkspace.grounded
  · have unread : sourceWorkspace.read sourceSurroundings.settingsFile = .error .notFound := by cbv
    refine perform_scanOptions.mpr
      ⟨⟨(Settings.defaults.get? Settings.scanSection).getD [], {}, ?_, rfl, rfl⟩, rfl⟩
    rw [Settings.load, Settings.readAll, FileTree.readText, unread]
    rfl

/-- The options in the text of a settings file. -/
def optionsIn (text : Text) : Except Fault Options := do
  let all ← Settings.readText (Text.withLineFeeds text)
  Options.ofEntries (← Settings.sectionOf all Settings.scanSection)

theorem perform_scanOptions_of_read {text : Text}
    (read : t.read s.settingsFile = .ok (Text.encode text)) :
    (scanOptions s respect).perform t = (.ok o, t') ↔
      (∃ own, optionsIn text = .ok own ∧
        o = { own with respectIgnoreFile := own.respectIgnoreFile && respect }) ∧ t' = t := by
  have loaded : Settings.load s.settingsFile Settings.scanSection t =
      (Settings.readText (Text.withLineFeeds text)).bind
        (Settings.sectionOf · Settings.scanSection) := by
    have all : Settings.readAll s.settingsFile t = Settings.readText (Text.withLineFeeds text) := by
      rw [Settings.readAll, FileTree.readText, read, Run.ok_bind, Text.decode?_encode]
      rfl
    rw [Settings.load, all]
    rfl
  rw [perform_scanOptions, loaded, optionsIn]
  refine and_congr_left fun _ => ?_
  constructor
  · rintro ⟨settings, own, load, read, is⟩
    obtain ⟨all, read', section_⟩ := Run.bind_eq_ok_iff.mp load
    refine ⟨own, Run.bind_eq_ok_iff.mpr ⟨all, read', ?_⟩, is⟩
    exact Run.bind_eq_ok_iff.mpr ⟨settings, section_, read⟩
  · rintro ⟨own, read, is⟩
    obtain ⟨all, read', rest⟩ := Run.bind_eq_ok_iff.mp read
    obtain ⟨settings, section_, read⟩ := Run.bind_eq_ok_iff.mp rest
    exact ⟨settings, own, Run.bind_eq_ok_iff.mpr ⟨all, read', section_⟩, read, is⟩

/-- A workspace that holds its settings, and a source file in a directory. -/
def configuredWorkspace (settings : Text) : FileTree :=
  { nodes :=
      [(["ws".toList], .directory),
        (["ws".toList, "config.toml".toList], .file (Text.encode settings)),
        (["ws".toList, "src".toList], .directory),
        (["ws".toList, "src".toList, "a.js".toList], .file (Text.encode "// @group x"))] }

def settingsPlace : Place := sourceRoot ++ ["config.toml".toList]

def configuredSurroundings : Surroundings where
  here := ⟨1, []⟩
  settingsFile := ⟨1, settingsPlace⟩
  clock := { changed := fun _ => none, now := .whole 0 }

/-- Settings that leave the directory of the source file out. -/
def narrowed : Text := "[scan]\nextra_skip_dirs = [\"src\"]\n"

theorem extraSkipped_narrowed {own : Options} (read : optionsIn narrowed = .ok own) :
    own.extraSkipped = ["src".toList] := by
  have skipped : (optionsIn narrowed).toOption.map (·.extraSkipped) = some ["src".toList] := by
    decide +kernel
  rw [read] at skipped
  exact Option.some.inj skipped

theorem regular_configuredWorkspace (settings : Text) :
    (configuredWorkspace settings).Regular sourceRoot := by
  refine .of_nodes ((FileTree.grounded_nil _).concat rfl) ?_ ?_
  · simp only [configuredWorkspace, List.forall_mem_cons]
    exact ⟨by decide, by decide, by decide, by decide, by simp⟩
  · simp [configuredWorkspace]

theorem put_configuredWorkspace : (configuredWorkspace []).put settingsPlace
    (.file (Text.encode narrowed)) = configuredWorkspace narrowed := rfl

theorem fits_configuredWorkspace : Fits (configuredWorkspace []) sourceRoot := by
  refine Store.fits_of_nodes fun e member content is => Store.fitsRoom_of_length ?_
  simp only [configuredWorkspace, List.mem_cons, List.not_mem_nil, or_false] at member
  rcases member with rfl | rfl | rfl | rfl
  all_goals cases is
  all_goals decide

theorem ready_configuredWorkspace : Store.Ready (configuredWorkspace []) sourceRoot :=
  ⟨.inr (by decide), by decide, by decide⟩

theorem asks_configuredSurroundings :
    Asks configuredSurroundings sourceRoot {} (configuredWorkspace []) ⟨1, sourceRoot⟩ true := by
  have regular := regular_configuredWorkspace []
  constructor
  · exact FileTree.realPath_of_grounded regular.root_named regular.grounded
  · have read : (configuredWorkspace []).read configuredSurroundings.settingsFile =
        .ok (Text.encode []) := by cbv
    exact (perform_scanOptions_of_read read).mpr ⟨⟨{}, rfl, rfl⟩, rfl⟩

/-- By default nothing of the workspace is left out. -/
theorem exists_filter_configuredWorkspace :
    ∃ f, Workspace.filter (configuredWorkspace []) ⟨1, sourceRoot⟩ {} = .ok f ∧
      f.skips "src" = false ∧
        ∀ path ∈ ["a.py".toList, "config.toml".toList, "src/".toList, "src/a.js".toList],
          Workspace.isIgnored f.rules path = false :=
  exists_filter_of_absent (regular_configuredWorkspace []) (by decide)

theorem isScanned_settings :
    IsScanned sourceRoot {} (configuredWorkspace []) configuredSurroundings.settingsFile :=
  isScanned_of_absent (regular_configuredWorkspace []) (by decide) rfl (by decide)
    (by decide)

/-- The trees hold the same but for the store. -/
def SameOutside (t t' : FileTree) : Prop :=
  ∀ p, ¬Store.storePlace sourceRoot <+: p → t.node? p = t'.node? p

/-- Without options the groups of the source file are found. -/
theorem mem_keys_of_describes {store : Store} {c : Corpus} (regular : t.Regular sourceRoot)
    (same : SameOutside t (configuredWorkspace narrowed))
    (describes : Describes store {} sourceRoot t c) : "js".toList ∈ c.keys := by
  obtain ⟨f, filtered, entered, wanted⟩ := exists_filter_configuredWorkspace
  have filtered' : Workspace.filter t ⟨1, sourceRoot⟩ {} = .ok f := by
    rw [← filtered]
    exact Workspace.filter_of_node {} regular (regular_configuredWorkspace [])
      (same _ (by decide))
  obtain ⟨fs, listed, -, members⟩ := Workspace.files_spec f regular
  have visits : Workspace.Visits t f sourceRoot [] ["src".toList, "a.js".toList] :=
    .down (same _ (by decide)) entered (wanted "src/" (by simp))
      (.file (same _ (by decide)) (wanted "src/a.js" (by simp)))
  obtain ⟨content, node, read, -⟩ := visits.exists_read regular
  have there : content = Text.encode "// @group x" := by
    have node' := same (sourceRoot ++ ["src".toList, "a.js".toList]) (by decide)
    rw [node] at node'
    exact FileNode.file.inj (Option.some.inj node')
  have found : (Workspace.foundIn t ⟨1, sourceRoot ++ ["src".toList, "a.js".toList]⟩).map Prod.fst =
      ["js".toList] := by
    rw [Workspace.foundIn, Workspace.findings, Workspace.scanFile, read, there]
    decide +kernel
  obtain ⟨⟨fileType, g⟩, inside, rfl⟩ := List.mem_map.mp (found ▸ List.mem_singleton.mpr rfl)
  exact describes.mem_keys_iff.mpr
    ⟨f, fs, filtered', listed, _, (members _).mpr ⟨_, visits, rfl⟩, g, inside⟩

/-- With the directory left out they are not. -/
theorem not_mem_keys_of_describes {store : Store} {c : Corpus} (regular : t.Regular sourceRoot)
    (noFile : Store.NoStoreFile t sourceRoot) (same : SameOutside t (configuredWorkspace narrowed))
    (describes : Describes store o sourceRoot t c) (skipped : o.extraSkipped = ["src".toList]) :
    "js".toList ∉ c.keys := by
  intro member
  obtain ⟨f, fs, filtered, listed, file, walked, g, inside⟩ := describes.mem_keys_iff.mp member
  obtain ⟨l, is, -, members⟩ := Workspace.files_spec f regular
  obtain rfl := Except.ok.inj (listed.symm.trans is)
  obtain ⟨names, visits, rfl⟩ := (members file).mp walked
  have type : "js".toList = Language.fileType (Path.toText ⟨1, sourceRoot ++ names⟩) :=
    (Workspace.mem_foundIn inside).1
  have left : f.skips "src" = true := by
    rw [Workspace.Filter.skips, Workspace.skipped_of_filter filtered, skipped]
    decide
  have outside : ∀ name, names.head? = some name → t.node? (sourceRoot ++ [name]) =
      (configuredWorkspace narrowed).node? (sourceRoot ++ [name]) := by
    intro name first
    refine same _ fun below => visits.head?_ne noFile (Store.skips_storeName f) ?_
    rw [Store.storePlace, List.prefix_append_right_inj, List.cons_prefix_cons] at below
    rw [first, below.1]
  cases visits with
  | @file _ name content node _ =>
      rw [List.append_nil, outside name rfl] at node
      have member := FileTree.mem_nodes (by simp) node
      obtain ⟨rfl, -⟩ : name = "config.toml".toList ∧ content = Text.encode narrowed := by
        simpa [configuredWorkspace, sourceRoot] using member
      exact absurd type (by decide)
  | @down _ name rest node entered _ _ =>
      rw [List.append_nil, outside name rfl] at node
      have member := FileTree.mem_nodes (by simp) node
      obtain rfl : name = "src".toList := by
        simpa [configuredWorkspace, sourceRoot] using member
      rw [left] at entered
      cases entered

/-- The workspace is scanned, and its settings are written anew and scanned. -/
theorem exists_reached_narrowed :
    ∃ t, Reached configuredSurroundings sourceRoot {} (configuredWorkspace []) t ∧
      SameOutside t (configuredWorkspace narrowed) := by
  have regular := regular_configuredWorkspace []
  have asks := asks_configuredSurroundings
  obtain ⟨f, filtered, -⟩ := exists_filter_configuredWorkspace
  obtain ⟨first, groups, index, scanned⟩ :=
    asks.exists_scan regular fits_configuredWorkspace ready_configuredWorkspace filtered
  have reached := Reached.scanned asks scanned
  have isScanned : IsScanned sourceRoot {}
      (Store.withFiles (configuredWorkspace []) sourceRoot groups index)
      configuredSurroundings.settingsFile :=
    Store.isScanned_withFiles isScanned_settings regular ready_configuredWorkspace
  have room : FitsRoom (Text.encode narrowed) := Store.fitsRoom_of_length (by decide)
  obtain ⟨edited, written, rescan⟩ :=
    (reached.kept regular fits_configuredWorkspace).edit regular isScanned room
  have path : (configuredWorkspace []).realPath
      (configuredSurroundings.here ++ configuredSurroundings.settingsFile) =
        .ok configuredSurroundings.settingsFile := by cbv
  obtain ⟨second, t, rescanned, -⟩ :=
    rescan ⟨1, sourceRoot⟩ configuredSurroundings.settingsFile true asks.workspace path
  refine ⟨t, reached.edited isScanned room written asks.workspace path rescanned, fun p away => ?_⟩
  obtain ⟨names, is, solid, put, regular', -⟩ :=
    exists_put_of_isScanned (Store.regular_withFiles regular) isScanned (Text.encode narrowed)
  obtain rfl : names = ["config.toml".toList] := by
    simpa [configuredSurroundings, settingsPlace] using is.symm
  obtain rfl := Except.ok.inj (written.symm.trans put)
  have leads : FileTree.realPath _ (configuredSurroundings.here ++ ⟨1, sourceRoot⟩) = _ :=
    FileTree.realPath_of_grounded regular'.root_named regular'.grounded
  rw [node?_of_scan regular' leads rescanned away, ← put_configuredWorkspace,
    FileTree.node?_put _ (by simp), FileTree.node?_put _ (by decide),
    node?_of_scan regular asks.workspace scanned away]
  rfl

/-- The new settings are those that are read then. -/
theorem read_settings_of_sameOutside (regular : t.Regular sourceRoot)
    (same : SameOutside t (configuredWorkspace narrowed)) :
    t.read configuredSurroundings.settingsFile = .ok (Text.encode narrowed) := by
  have node : t.node? settingsPlace = some (.file (Text.encode narrowed)) := same _ (by decide)
  refine (FileTree.read_concat regular.root_named regular.grounded
    (FileTree.isEntryName_of_isName (by decide)) fun target => regular.notLink _ target).trans ?_
  rw [← settingsPlace, node]

/-- So another scan of the workspace loses the groups of the source file. -/
theorem not_mem_keys_of_scan (regular : t.Regular sourceRoot) (fits : Fits t sourceRoot)
    (same : SameOutside t (configuredWorkspace narrowed))
    (done : (scan configuredSurroundings ⟨1, sourceRoot⟩ respect none).perform t =
      (.ok outcome, t')) :
    ∃ o c, UpToDate (storeAt configuredSurroundings sourceRoot) o sourceRoot t' c ∧
      "js".toList ∉ c.keys := by
  have here : t.realPath (configuredSurroundings.here ++ ⟨1, sourceRoot⟩) = .ok ⟨1, sourceRoot⟩ :=
    FileTree.realPath_of_grounded regular.root_named regular.grounded
  obtain ⟨real, o, answer, leads, options, refreshed⟩ := perform_scan_all.mp ⟨_, done⟩
  obtain rfl := Except.ok.inj (leads.symm.trans here)
  obtain ⟨⟨own, settings, rfl⟩, -⟩ :=
    (perform_scanOptions_of_read (read_settings_of_sameOutside regular same)).mp options
  have upToDate : UpToDate (storeAt configuredSurroundings sourceRoot) _ sourceRoot t' answer.1 :=
    Store.upToDate_of_refresh rfl regular fits refreshed
  have same' : SameOutside t' (configuredWorkspace narrowed) := fun p away =>
    (node?_of_scan regular leads done away).trans (same p away)
  have skipped := extraSkipped_narrowed settings
  exact ⟨_, _, upToDate, not_mem_keys_of_describes upToDate.regular
    (Store.noStoreFile_of_ready upToDate.stores.ready) same' upToDate.describes skipped⟩

end CodeAtlas.CommandLine
