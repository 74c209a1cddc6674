/-
# Proofs.Settings.History -- the file of the settings is a map with defaults

A history is a run of changes, each of which answers `true` and leaves a file behind
(`History`).  What one change does to a setting is known (`Change.get?_apply`), so by induction on
the history the file holds of every setting what was saved last after its section was last dropped
(`readAll_of_history`), and a section that is loaded has exactly its settings, each with that value
or its default (`load_of_history`).  Changes do succeed where the file can be written and the
settings have a text (`exists_history`).

Writing and reading TOML need not agree on every table.  They are taken to agree on those that the
history puts into the file (`ReadsBack`).
-/
import Mathlib
import CodeAtlas.Proofs.Settings.Change
import CodeAtlas.Proofs.Value.Same

namespace CodeAtlas.Settings

set_option autoImplicit false

variable {c : Change} {cs : List Change} {all all' : Entries Value} {section_ key : Text}
  {file : Path} {start t t' : FileTree}

/-! ## What has been saved -/

/-- **The value saved last for a setting**, after its section was last dropped. -/
def latest? (section_ key : Text) (cs : List Change) : Option Value :=
  (cs.reverse.takeWhile fun c => !c.resets section_).findSome? (Change.saved? section_ key)

theorem latest?_concat (section_ key : Text) (cs : List Change) (c : Change) :
    latest? section_ key (cs ++ [c]) =
      (c.saved? section_ key).or
        (if c.resets section_ then none else latest? section_ key cs) := by
  rw [latest?, List.reverse_append, List.reverse_singleton, List.singleton_append,
    List.takeWhile_cons]
  by_cases dropped : c.resets section_ = true
  · rw [if_neg (by simp [dropped]), if_pos dropped, Change.saved?_of_resets dropped]
    rfl
  · rw [if_pos (by simp [dropped]), if_neg dropped, List.findSome?_cons]
    cases c.saved? section_ key <;> rfl

/-- What was saved last was saved. -/
theorem save_mem_of_latest? {v : Value} (saved : latest? section_ key cs = some v) :
    Change.save section_ key v ∈ cs := by
  obtain ⟨c, member, found⟩ := List.exists_of_findSome?_eq_some saved
  have inside : c ∈ cs := List.mem_reverse.mp ((List.takeWhile_subset _) member)
  cases c with
  | reset section' => cases found
  | save section' key' w =>
      rw [Change.saved?] at found
      split at found
      · rename_i both
        obtain ⟨rfl, rfl⟩ := both
        cases found
        exact inside
      · cases found

/-! ## The settings along a history -/

/-- The settings after some changes, beginning with none. -/
def held (cs : List Change) : Except Fault (Entries Value) :=
  cs.foldlM (fun all c => c.apply all) []

theorem held_concat (held_ : held cs = .ok all) (c : Change) : held (cs ++ [c]) = c.apply all := by
  rw [held] at held_
  rw [held, List.foldlM_append, held_, Run.ok_bind, List.foldlM_cons]
  cases c.apply all <;> rfl

/-- Every section is a table, with no setting in it twice. -/
def IsSound (all : Entries Value) : Prop :=
  ∀ section_ v, all.get? section_ = some v → ∃ settings : Entries Value,
    v = .table settings ∧ settings.keys.Nodup

theorem isSound_nil : IsSound [] := by
  rintro section_ v ⟨⟩

theorem IsSound.nodup (sound : IsSound all) (section_ : Text) :
    (settingsIn all section_).keys.Nodup := by
  rw [settingsIn]
  cases found : all.get? section_ with
  | none => exact List.nodup_nil
  | some v =>
      obtain ⟨settings, rfl, distinct⟩ := sound section_ v found
      exact distinct

/-- Sound settings take every change, and stay sound. -/
theorem IsSound.exists_apply (sound : IsSound all) (c : Change) :
    ∃ all', c.apply all = .ok all' ∧ IsSound all' := by
  cases c with
  | save section_ key v =>
      have table : (all.get? section_).getD (.table []) = .table (settingsIn all section_) := by
        rw [settingsIn]
        cases found : all.get? section_ with
        | none => rfl
        | some v =>
            obtain ⟨settings, rfl, -⟩ := sound section_ v found
            rfl
      refine ⟨_, Change.save_apply_eq_ok_iff.mpr ⟨table, rfl⟩, fun section' w found => ?_⟩
      rw [Entries.get?_set] at found
      split at found
      · cases found
        exact ⟨_, rfl, Entries.nodup_keys_alter (sound.nodup section_) _ _⟩
      · exact sound section' w found
  | reset section_ =>
      refine ⟨_, rfl, fun section' w found => ?_⟩
      rw [Entries.get?_erase] at found
      split at found
      · cases found
      · exact sound section' w found

/-! ## The file along a history -/

/-- **Changes made one after the other**, each of them with success, and with a file to show for
it. -/
inductive History (file : Path) (start : FileTree) : List Change → FileTree → Prop
  | start : History file start [] start
  | next {cs : List Change} {c : Change} {t t' : FileTree} (before : History file start cs t)
      (done : (c.script file).perform t = (.ok true, t')) (there : t'.isFile file = true) :
      History file start (cs ++ [c]) t'

/-- Reading undoes writing. -/
def ReadsBack (all : Entries Value) : Prop :=
  ∀ text, Toml.write all = .ok text → Toml.read (Text.withLineFeeds text) = .ok all

instance : DecidablePred ReadsBack := fun all =>
  match written : Toml.write all with
  | .error _ => isTrue fun text same => by rw [written] at same; cases same
  | .ok text =>
      decidable_of_iff ((Toml.read (Text.withLineFeeds text)).toOption = some all) <| by
        rw [ReadsBack, written, Run.toOption_eq_some_iff]
        exact ⟨fun back _ same => Except.ok.inj same ▸ back, fun back => back text rfl⟩

/-- The value is of the kind that texts are read as for the setting. -/
def Change.Fits : Change → Prop
  | save section_ key v => ∃ raw parsed, parse section_ key raw = .ok parsed ∧ kind v = kind parsed
  | reset _ => True

theorem Change.Fits.isKnown (fits : c.Fits) : c.isKnown = true := by
  cases c with
  | save section_ key v =>
      obtain ⟨raw, parsed, read, -⟩ := fits
      obtain ⟨d, known, -⟩ := kind_parse read
      rw [Change.isKnown, known]
      rfl
  | reset section_ => rfl

/-- No settings are stored where there is no file. -/
theorem readAll_of_not_holds (new : t.holds file = false) : readAll file t = .ok [] := by
  have absent : t.find? file = none := by
    rw [FileTree.holds] at new
    exact Option.not_isSome_iff_eq_none.mp (by simp [new])
  rw [FileTree.find?] at absent
  rw [readAll, FileTree.readText, FileTree.read]
  split at absent
  · rename_i place located
    rw [located]
    dsimp only
    rw [absent]
    rfl
  · rename_i miss located
    rw [located]
    cases miss <;> rfl

/-- **A change that answers `true` has written the changed settings.** -/
theorem readAll_of_perform (known : c.isKnown = true) (before : readAll file t = .ok all)
    (applied : c.apply all = .ok all') (reads : ReadsBack all')
    (done : (c.script file).perform t = (.ok true, t')) (there : t'.isFile file = true) :
    readAll file t' = .ok all' := by
  rw [perform_script_of_apply known before applied] at done
  obtain ⟨emptied, text, written, filled⟩ := of_perform_writeAll done
  obtain ⟨place, put⟩ := FileTree.exists_written filled
  have content : t'.read file = .ok (Text.encode text) := by
    rw [FileTree.isFile, FileTree.find?] at there
    split at there
    · rename_i found
      split at found
      · rename_i p located
        rw [put.eq_of_locate (FileTree.Keeps.refl t') located] at located
        exact FileTree.read_of_locate located put.node
      · cases found
    · cases there
  rw [readAll, FileTree.readText_of_read content]
  dsimp only
  rw [readText, reads text written]

/-- **The file holds of every setting what was saved last.** -/
theorem readAll_of_history (history : History file start cs t) (new : start.holds file = false)
    (fits : ∀ c ∈ cs, c.Fits)
    (reads : ∀ part all, part <+: cs → held part = .ok all → ReadsBack all) :
    ∃ all, held cs = .ok all ∧ IsSound all ∧ readAll file t = .ok all ∧
      ∀ section_ key, (settingsIn all section_).get? key = latest? section_ key cs := by
  induction history with
  | start =>
      exact ⟨[], rfl, isSound_nil, readAll_of_not_holds new, fun _ _ => rfl⟩
  | @next cs c t t' before done there ih =>
      obtain ⟨all, held_, sound, read, stored⟩ :=
        ih (fun c' earlier => fits c' (List.mem_append_left _ earlier))
          (fun part all initial => reads part all (initial.trans (List.prefix_append _ _)))
      obtain ⟨all', applied, sound'⟩ := sound.exists_apply c
      have held' : held (cs ++ [c]) = .ok all' := (held_concat held_ c).trans applied
      have known : c.isKnown = true := (fits c (by simp)).isKnown
      refine ⟨all', held', sound', ?_, fun section_ key => ?_⟩
      · exact readAll_of_perform known read applied (reads _ _ List.prefix_rfl held') done there
      · rw [Change.get?_apply applied, latest?_concat, stored]

/-- **Changes succeed where the file can be written and its text can be made.** -/
theorem exists_history (can : CanFill file start) (new : start.holds file = false)
    (fits : ∀ c ∈ cs, c.Fits)
    (reads : ∀ part all, part <+: cs → held part = .ok all →
      (∃ text, Toml.write all = .ok text) ∧ ReadsBack all) :
    ∃ t, History file start cs t ∧ CanFill file t := by
  induction cs using List.reverseRecOn with
  | nil => exact ⟨start, .start, can⟩
  | append_singleton cs c ih =>
      have fits' : ∀ c' ∈ cs, c'.Fits := fun c' earlier => fits c' (List.mem_append_left _ earlier)
      have reads' := fun part all (initial : part <+: cs) =>
        reads part all (initial.trans (List.prefix_append _ _))
      obtain ⟨t, history, can'⟩ := ih fits' reads'
      obtain ⟨all, held_, sound, read, -⟩ :=
        readAll_of_history history new fits' fun part all initial held_ =>
          (reads' part all initial held_).2
      obtain ⟨all', applied, -⟩ := sound.exists_apply c
      have held' : held (cs ++ [c]) = .ok all' := (held_concat held_ c).trans applied
      obtain ⟨⟨text, written⟩, -⟩ := reads _ _ List.prefix_rfl held'
      obtain ⟨t', done, content⟩ := exists_writeAll can' all'
      rw [written] at done
      refine ⟨t', .next history ?_ (FileTree.isFile_of_read content), canFill_of_read content⟩
      rw [perform_script_of_apply (fits c (by simp)).isKnown read applied]
      exact done

/-- **The settings are a map with defaults.**  After any history that begins without a file, a
section that is loaded has exactly the settings that have defaults, and each of them has the value
saved last after the section was last dropped, or else its default. -/
theorem load_of_history {settings : Entries Value} (history : History file start cs t)
    (new : start.holds file = false) (fits : ∀ c ∈ cs, c.Fits)
    (reads : ∀ part all, part <+: cs → held part = .ok all → ReadsBack all)
    (known : defaults.get? section_ = some settings) :
    ∃ loaded, load file section_ t = .ok loaded ∧ loaded.keys = settings.keys ∧
      ∀ key d, settings.get? key = some d →
        loaded.get? key = some ((latest? section_ key cs).getD d) := by
  obtain ⟨all, -, sound, read, stored⟩ := readAll_of_history history new fits reads
  refine ⟨merge settings (settingsIn all section_), ?_, keys_merge _ _, fun key d default_ => ?_⟩
  · rw [Settings.load, known, read]
    simp only [Option.isNone_some, Bool.false_eq_true, if_false]
    change sectionOf all section_ = _
    rw [sectionOf, known]
    rfl
  · rw [get?_merge (sound.nodup section_), stored, default_]
    cases saved : latest? section_ key cs with
    | none => rfl
    | some v =>
        obtain ⟨raw, parsed, read', same⟩ := fits _ (save_mem_of_latest? saved)
        obtain ⟨d', default', same'⟩ := kind_parse read'
        have usable : isUsable settings key v = true := by
          rw [default?, known] at default'
          rw [isUsable, show settings.get? key = some d' from default']
          exact sameKind_iff.mpr (same'.trans same.symm)
        simp [Option.filter, usable]

/-! ## A history -/

/-- The file of the settings in a directory that holds nothing else. -/
def homeFile : Path := ⟨1, ["home", "config.toml"]⟩

def home : FileTree := { nodes := [(["home"], .directory)] }

/-- Two sections are written, one is dropped and written again. -/
def someChanges : List Change :=
  [.save scanSection "respect_gitignore" (.bool false),
   .save reviewSection "orphaned_threshold" (.int 5),
   .reset scanSection,
   .save scanSection "extra_skip_dirs" (.list [.text "vendor"])]

theorem fits_someChanges : ∀ c ∈ someChanges, c.Fits := by
  have truth : parse scanSection "respect_gitignore" "no" = .ok (.bool false) :=
    Run.toOption_eq_some_iff.mp (by decide +kernel)
  have number : parse reviewSection "orphaned_threshold" "5" = .ok (.int 5) :=
    Run.toOption_eq_some_iff.mp (by decide +kernel)
  have list : parse scanSection "extra_skip_dirs" "vendor" = .ok (.list [.text "vendor"]) :=
    Run.toOption_eq_some_iff.mp (by decide +kernel)
  simp only [someChanges, List.forall_mem_cons]
  exact ⟨⟨_, _, truth, rfl⟩, ⟨_, _, number, rfl⟩, trivial, ⟨_, _, list, rfl⟩, by simp⟩

theorem reads_someChanges (part : List Change) (all : Entries Value)
    (initial : part <+: someChanges) (held_ : held part = .ok all) :
    (∃ text, Toml.write all = .ok text) ∧ ReadsBack all := by
  have each : ∀ part ∈ someChanges.inits, ∀ all ∈ (held part).toOption,
      (Toml.write all).toOption.isSome ∧ ReadsBack all := by decide +kernel
  have here := each part ((List.mem_inits _ _).mpr initial) all (Run.toOption_eq_some_iff.mpr held_)
  obtain ⟨text, written⟩ := Option.isSome_iff_exists.mp here.1
  exact ⟨⟨text, Run.toOption_eq_some_iff.mp written⟩, here.2⟩

theorem canFill_home : CanFill homeFile home :=
  ⟨home, home.put homeFile.parts (.file []), by cbv, by cbv, by cbv⟩

/-- After some changes: what was dropped is the default again, what was saved since is there. -/
theorem load_of_history_some : ∃ t loaded, History homeFile home someChanges t ∧
    load homeFile scanSection t = .ok loaded ∧
    loaded.get? "respect_gitignore" = some (.bool true) ∧
    loaded.get? "extra_skip_dirs" = some (.list [.text "vendor"]) := by
  have new : home.holds homeFile = false := by cbv
  obtain ⟨t, history, -⟩ := exists_history canFill_home new fits_someChanges reads_someChanges
  have known : defaults.get? scanSection = some scanDefaults := rfl
  obtain ⟨loaded, done, -, each⟩ := load_of_history history new fits_someChanges
    (fun part all initial held_ => (reads_someChanges part all initial held_).2) known
  refine ⟨t, loaded, history, done, ?_, ?_⟩
  · rw [each "respect_gitignore" (.bool true) rfl]
    exact congrArg some (by decide)
  · rw [each "extra_skip_dirs" (.list []) rfl]
    exact congrArg some (by decide)

end CodeAtlas.Settings
