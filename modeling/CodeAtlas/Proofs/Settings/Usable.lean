/-
# Proofs.Settings.Usable -- which files of settings yield settings that can be used

The intended rule: a stored value that can be used counts, and everything else leaves the default
in place (`used`).  A threshold can use any number but an infinity or NaN, the similarity any
number that is no whole number beyond the floating-point ones, and the directories to skip are a
list of values that a set can hold (`threshold?`, `similarity?`, `skipped?`).

Two things stand between this rule and what is done.  A file whose bytes are no text, or whose text
makes the reading fail otherwise than as unreadable, gives no settings at all, not even defaults
(`exists_readAll_iff`).  And a section takes a stored value by its kind alone (`isUsable`), so a
value of the right kind that cannot be used takes the place of the default, and makes the options
that are read from the section fail (`setting_merge_iff`).  The settings are usable exactly if
neither happens (`loadsUsably_iff`).
-/
import CodeAtlas.Proofs.Settings.Atomic
import CodeAtlas.Proofs.Toml.Distinct
import CodeAtlas.Review.Options
import CodeAtlas.Workspace.Scan

namespace CodeAtlas.Settings

set_option autoImplicit false

open Review.Options (setting checksOf)

variable {α : Type} {stored usual all : Entries Value} {file : Path} {t : FileTree} {key : Text}
  {d v : Value}

/-! ## What can be used -/

/-- The whole number that a value gives a threshold; it loses its fraction. -/
def threshold? : Value → Option Int
  | .int n => some n
  | .float x => (Number.Dyadic.ofFloat? x).map Number.Dyadic.truncate
  | _ => none

/-- The similarity that a value gives. -/
def similarity? : Value → Option Number.Double
  | .float x => some x
  | .int n => (Number.floatOfInt? n).map .ofFloat
  | _ => none

/-- The checks that a list of names enables. -/
def checks? : Value → Option (List Review.Kind)
  | .list vs => some (vs.filterMap fun v => (Review.Kind.ofValue v).toOption)
  | _ => none

def truth? : Value → Option Bool
  | .bool b => some b
  | _ => none

/-- Can a set hold the value?  It is no list, no table and no moment with an offset of a day or more. -/
def isSingle (v : Value) : Bool := (Workspace.hashFault? v).isNone

/-- The directories that a list of such values names. -/
def skipped? : Value → Option (List Text)
  | .list vs => if vs.all isSingle then some (vs.filterMap Value.text?) else none
  | _ => none

/-- **What is to be used for a setting**: what is stored, if that can be used, and else the
default. -/
def used (stored : Entries Value) (key : Text) (read? : Value → Option α) (absent : α) : α :=
  ((stored.get? key).bind read?).getD absent

/-- The options of a review that the stored settings should give. -/
def usedReview (stored : Entries Value) : Review.Options :=
  let usual : Review.Options := {}
  { similarity := used stored "similarity_threshold" similarity? usual.similarity
    orphanedDays := used stored "orphaned_threshold" threshold? usual.orphanedDays
    singleUse := used stored "single_use_threshold" threshold? usual.singleUse
    tooLarge := used stored "too_large_threshold" threshold? usual.tooLarge
    tooSmall := used stored "too_small_threshold" threshold? usual.tooSmall
    checks := used stored "enabled_checks" checks? usual.checks }

/-- The options of a scan that the stored settings should give. -/
def usedScan (stored : Entries Value) : Workspace.Options :=
  let usual : Workspace.Options := {}
  { respectIgnoreFile := used stored "respect_gitignore" truth? usual.respectIgnoreFile
    extraSkipped := used stored "extra_skip_dirs" skipped? usual.extraSkipped }

/-! ## What is used -/

/-- What reading a setting gives, against what can be used of it: the default gives its own, both
agree on the values of its kind, and the others are of no use. -/
structure Reads (usual : Entries Value) (key : Text) (read : Value → Except Fault α)
    (read? : Value → Option α) (absent : α) : Prop where
  absent : ∃ d, usual.get? key = some d ∧ read d = .ok absent
  agrees : ∀ v, read? v = if isUsable usual key v then (read v).toOption else none

/-- No stored value takes the place of the default without being of use. -/
def Harmless (usual stored : Entries Value) (key : Text) (read? : Value → Option α) : Prop :=
  ∀ v, stored.get? key = some v → isUsable usual key v = true → (read? v).isSome

/-- **A setting is read as it should be exactly if what is stored for it is harmless.** -/
theorem setting_merge_iff {read : Value → Except Fault α} {read? : Value → Option α}
    {absent absent' : α} (reads : Reads usual key read read? absent)
    (distinct : stored.keys.Nodup) :
    setting (merge usual stored) key read absent' = .ok (used stored key read? absent) ↔
      Harmless usual stored key read? := by
  obtain ⟨d, default_, plain⟩ := reads.absent
  rw [setting, get?_merge distinct, default_, used, Harmless]
  cases stored.get? key with
  | none => simpa using plain
  | some v =>
      have agree := reads.agrees v
      -- A value of another kind leaves the default; one of its kind takes its place in any case, so
      -- that it has to be of use.
      cases usable : isUsable usual key v with
      | false =>
          rw [usable, if_neg Bool.false_ne_true] at agree
          simp [Option.filter, usable, agree, plain]
      | true =>
          rw [usable, if_pos rfl] at agree
          cases outcome : read v with
          | error f =>
              rw [outcome] at agree
              have none_ : read? v = none := agree
              simp [Option.filter, usable, outcome, none_]
          | ok a =>
              rw [outcome] at agree
              have some_ : read? v = some a := agree
              simp [Option.filter, usable, outcome, some_]

theorem isUsable_of_get? (default_ : usual.get? key = some d) (v : Value) :
    isUsable usual key v = sameKind d v := by
  rw [isUsable, default_]
  rfl

/-! ## The settings of a review -/

theorem reads_threshold {n : Int} (default_ : usual.get? key = some (.int n)) :
    Reads usual key Value.toInteger threshold? n := by
  refine ⟨⟨_, default_, rfl⟩, fun v => ?_⟩
  rw [isUsable_of_get? default_]
  cases v with
  | float x =>
      rw [Value.toInteger, Value.wholePart, threshold?]
      cases Number.Dyadic.ofFloat? x <;> rfl
  | _ => rfl

theorem reads_similarity {x : Number.Double} (default_ : usual.get? key = some (.float x)) :
    Reads usual key Value.toDouble similarity? x := by
  refine ⟨⟨_, default_, rfl⟩, fun v => ?_⟩
  rw [isUsable_of_get? default_]
  cases v with
  | int n =>
      rw [Value.toDouble, Value.floatingPoint, similarity?]
      cases Number.floatOfInt? n <;> rfl
  | _ => rfl

theorem reads_checks {vs : List Value} {ks : List Review.Kind}
    (default_ : usual.get? key = some (.list vs)) (names : checksOf (.list vs) = .ok ks) :
    Reads usual key checksOf checks? ks := by
  refine ⟨⟨_, default_, names⟩, fun v => ?_⟩
  rw [isUsable_of_get? default_]
  cases v <;> rfl

/-- A threshold is harmless unless it is an infinity or NaN. -/
theorem harmless_threshold_iff {n : Int} (default_ : usual.get? key = some (.int n)) :
    Harmless usual stored key threshold? ↔
      ∀ x, stored.get? key = some (.float x) → (Number.Dyadic.ofFloat? x).isSome := by
  constructor
  · intro harmless x there
    have some_ := harmless _ there (by rw [isUsable_of_get? default_]; rfl)
    rwa [threshold?, Option.isSome_map] at some_
  · intro finite v there usable
    rw [isUsable_of_get? default_] at usable
    cases v with
    | int m => rfl
    | float x =>
        rw [threshold?, Option.isSome_map]
        exact finite x there
    | _ => cases usable

/-- A similarity is harmless unless it is a whole number that is too large. -/
theorem harmless_similarity_iff {x : Number.Double} (default_ : usual.get? key = some (.float x)) :
    Harmless usual stored key similarity? ↔
      ∀ n, stored.get? key = some (.int n) → (Number.floatOfInt? n).isSome := by
  constructor
  · intro harmless n there
    have some_ := harmless _ there (by rw [isUsable_of_get? default_]; rfl)
    rwa [similarity?, Option.isSome_map] at some_
  · intro small v there usable
    rw [isUsable_of_get? default_] at usable
    cases v with
    | float y => rfl
    | int n =>
        rw [similarity?, Option.isSome_map]
        exact small n there
    | _ => cases usable

theorem harmless_checks {vs : List Value} (default_ : usual.get? key = some (.list vs)) :
    Harmless usual stored key checks? := by
  intro v _ usable
  rw [isUsable_of_get? default_] at usable
  cases v with
  | list vs => rfl
  | _ => cases usable

theorem ofEntries_eq_ok_iff {e : Entries Value} {o : Review.Options} :
    let usual : Review.Options := {}
    Review.Options.ofEntries e = .ok o ↔
      setting e "enabled_checks" checksOf usual.checks = .ok o.checks ∧
      setting e "similarity_threshold" Value.toDouble usual.similarity = .ok o.similarity ∧
      setting e "orphaned_threshold" Value.toInteger usual.orphanedDays = .ok o.orphanedDays ∧
      setting e "single_use_threshold" Value.toInteger usual.singleUse = .ok o.singleUse ∧
      setting e "too_large_threshold" Value.toInteger usual.tooLarge = .ok o.tooLarge ∧
      setting e "too_small_threshold" Value.toInteger usual.tooSmall = .ok o.tooSmall := by
  intro usual
  rw [Review.Options.ofEntries]
  constructor
  · intro read
    obtain ⟨checks, first, read⟩ := Run.bind_eq_ok_iff.mp read
    obtain ⟨similarity, second, read⟩ := Run.bind_eq_ok_iff.mp read
    obtain ⟨orphaned, third, read⟩ := Run.bind_eq_ok_iff.mp read
    obtain ⟨single, fourth, read⟩ := Run.bind_eq_ok_iff.mp read
    obtain ⟨large, fifth, read⟩ := Run.bind_eq_ok_iff.mp read
    obtain ⟨small, sixth, read⟩ := Run.bind_eq_ok_iff.mp read
    cases read
    exact ⟨first, second, third, fourth, fifth, sixth⟩
  · rintro ⟨first, second, third, fourth, fifth, sixth⟩
    dsimp only
    rw [first, second, third, fourth, fifth, sixth]
    rfl

/-! ## The settings of a scan -/

/-- The directories to skip in a value. -/
def readSkipped (v : Value) : Except Fault (List Text) := Workspace.directoriesIn (v.list?.getD [])

def readTruth (v : Value) : Except Fault Bool := .ok ((truth? v).getD true)

/-- A truth value that may be missing, which stands for yes. -/
def isYes : Option Value → Bool
  | some (.bool b) => b
  | _ => true

theorem scanOptions_eq_ok_iff {e : Entries Value} {o : Workspace.Options} :
    Workspace.Options.ofEntries e = .ok o ↔
      setting e "extra_skip_dirs" readSkipped [] = .ok o.extraSkipped ∧
      setting e "respect_gitignore" readTruth true = .ok o.respectIgnoreFile := by
  have names : setting e "extra_skip_dirs" readSkipped [] =
      Workspace.directoriesIn (((e.get? "extra_skip_dirs").bind Value.list?).getD []) := by
    rw [setting]
    cases e.get? "extra_skip_dirs" <;> rfl
  have yes : setting e "respect_gitignore" readTruth true =
      .ok (isYes (e.get? "respect_gitignore")) := by
    rw [setting]
    cases e.get? "respect_gitignore" with
    | none => rfl
    | some v => cases v <;> rfl
  obtain ⟨respect, skipped⟩ := o
  rw [names, yes, Workspace.Options.ofEntries]
  cases Workspace.directoriesIn (((e.get? "extra_skip_dirs").bind Value.list?).getD []) with
  | error f => simp [bind, Except.bind]
  | ok listed =>
      rw [Run.ok_bind]
      constructor
      · intro same
        cases same
        exact ⟨rfl, rfl⟩
      · rintro ⟨same, same'⟩
        cases same
        cases same'
        rfl

/-- A list of values that a set can hold is read. -/
theorem directoriesIn_eq (vs : List Value) :
    (Workspace.directoriesIn vs).toOption =
      if vs.all isSingle then some (vs.filterMap Value.text?) else none := by
  rw [Workspace.directoriesIn]
  cases fault : vs.findSome? Workspace.hashFault? with
  | none =>
      have all : vs.all isSingle = true := by
        simpa [isSingle, List.findSome?_eq_none_iff] using fault
      rw [all]
      rfl
  | some f =>
      obtain ⟨v, member, found⟩ := List.exists_of_findSome?_eq_some fault
      have some_ : ¬ vs.all isSingle = true := by
        intro all
        have single := List.all_eq_true.mp all v member
        rw [isSingle, found] at single
        cases single
      rw [if_neg some_]
      rfl

theorem reads_skipped (default_ : usual.get? key = some (.list [])) :
    Reads usual key readSkipped skipped? [] := by
  refine ⟨⟨_, default_, rfl⟩, fun v => ?_⟩
  rw [isUsable_of_get? default_]
  cases v with
  | list vs => exact (directoriesIn_eq vs).symm
  | _ => rfl

theorem reads_truth {b : Bool} (default_ : usual.get? key = some (.bool b)) :
    Reads usual key readTruth truth? b := by
  refine ⟨⟨_, default_, rfl⟩, fun v => ?_⟩
  rw [isUsable_of_get? default_]
  cases v <;> rfl

/-- Directories to skip are harmless if a set can hold all of them. -/
theorem harmless_skipped_iff (default_ : usual.get? key = some (.list [])) :
    Harmless usual stored key skipped? ↔
      ∀ vs, stored.get? key = some (.list vs) → vs.all isSingle = true := by
  constructor
  · intro harmless vs there
    have some_ := harmless _ there (by rw [isUsable_of_get? default_]; rfl)
    rw [skipped?] at some_
    split at some_
    · assumption
    · cases some_
  · intro single v there usable
    rw [isUsable_of_get? default_] at usable
    cases v with
    | list vs =>
        rw [skipped?, single vs there]
        rfl
    | _ => cases usable

theorem harmless_truth {b : Bool} (default_ : usual.get? key = some (.bool b)) :
    Harmless usual stored key truth? := by
  intro v _ usable
  rw [isUsable_of_get? default_] at usable
  cases v with
  | bool b => rfl
  | _ => cases usable

/-! ## Files -/

/-- The settings that a file spells for a section; one that spells nothing has none. -/
def storedIn (file : Path) (t : FileTree) (section_ : Text) : Entries Value :=
  settingsIn ((tableIn file t).toOption.getD []) section_

/-- **The file yields usable settings**: both sections can be loaded, and the options that are read
from them are what they should be. -/
def LoadsUsably (file : Path) (t : FileTree) : Prop :=
  ∃ review scan, load file reviewSection t = .ok review ∧ load file scanSection t = .ok scan ∧
    Review.Options.ofEntries review = .ok (usedReview (storedIn file t reviewSection)) ∧
    Workspace.Options.ofEntries scan = .ok (usedScan (storedIn file t scanSection))

/-- The file cannot be opened, spells a table, or is unreadable in the way that is expected. -/
def IsForgiven (file : Path) (t : FileTree) : Prop :=
  (∃ f, t.read file = .error f) ∨ (∃ all, tableIn file t = .ok all) ∨
    tableIn file t = .error .unreadable

/-- The settings of a review that are whole numbers. -/
def thresholdKeys : List Text :=
  ["orphaned_threshold", "single_use_threshold", "too_large_threshold", "too_small_threshold"]

/-- The thresholds are whole numbers or finite, the similarity is a number that is not too large, and
a set can hold the directories to skip -- as far as they are numbers and a list at all. -/
structure Convertible (review scan : Entries Value) : Prop where
  thresholds : ∀ key ∈ thresholdKeys, ∀ x, review.get? key = some (.float x) →
    (Number.Dyadic.ofFloat? x).isSome
  similarity : ∀ n, review.get? "similarity_threshold" = some (.int n) →
    (Number.floatOfInt? n).isSome
  skipped : ∀ vs, scan.get? "extra_skip_dirs" = some (.list vs) → vs.all isSingle = true

/-- A file that cannot be opened holds no settings. -/
theorem readAll_of_read_error {f : Fault} (stopped : t.read file = .error f) :
    readAll file t = .ok [] ∧ tableIn file t = .error f := by
  have closed : t.readText file = .error f := by
    rw [FileTree.readText, stopped]
    rfl
  constructor
  · rw [readAll, closed]
    cases f with
    | undecodable => exact absurd stopped FileTree.read_ne_undecodable
    | _ => rfl
  · rw [tableIn, closed]
    rfl

/-- **Which files give settings.** -/
theorem exists_readAll_iff : (∃ all, readAll file t = .ok all) ↔ IsForgiven file t := by
  cases read : t.read file with
  | error f => exact iff_of_true ⟨[], (readAll_of_read_error read).1⟩ (.inl ⟨f, read⟩)
  | ok old =>
      rw [IsForgiven, read]
      constructor
      · rintro ⟨all, loaded⟩
        rcases tableIn_of_readAll read loaded with table | unreadable
        · exact .inr (.inl ⟨all, table⟩)
        · exact .inr (.inr unreadable)
      · rintro (⟨f, ⟨⟩⟩ | ⟨all, table⟩ | unreadable)
        · exact ⟨all, by rw [readAll_eq read, table]⟩
        · exact ⟨[], by rw [readAll_eq read, unreadable]⟩

/-- The settings that are read are those that the file spells. -/
theorem eq_of_readAll (loaded : readAll file t = .ok all) :
    all = (tableIn file t).toOption.getD [] := by
  cases read : t.read file with
  | error f =>
      obtain ⟨none_, closed⟩ := readAll_of_read_error read
      rw [loaded] at none_
      rw [closed]
      exact Except.ok.inj none_
  | ok old =>
      rcases tableIn_of_readAll read loaded with table | unreadable
      · rw [table]
        rfl
      · rw [readAll_eq read, unreadable] at loaded
        rw [unreadable]
        exact (Except.ok.inj loaded).symm

/-- **A file spells no setting twice.** -/
theorem nodup_storedIn (file : Path) (t : FileTree) (section_ : Text) :
    (storedIn file t section_).keys.Nodup := by
  rw [storedIn, settingsIn]
  cases table : tableIn file t with
  | error f => exact List.nodup_nil
  | ok all =>
      obtain ⟨text, -, read⟩ := Run.bind_eq_ok_iff.mp table
      have distinct := Toml.distinct_of_read read
      change (((all.get? section_).bind Value.table?).getD []).keys.Nodup
      cases found : all.get? section_ with
      | none => exact List.nodup_nil
      | some v =>
          cases v with
          | table settings =>
              cases distinct.of_get? found with
              | table keys _ => exact keys
          | _ => exact List.nodup_nil

/-- A section is loaded if the file gives settings. -/
theorem load_eq_ok_iff {settings loaded : Entries Value} {section_ : Text}
    (known : defaults.get? section_ = some settings) :
    load file section_ t = .ok loaded ↔
      IsForgiven file t ∧ loaded = merge settings (storedIn file t section_) := by
  rw [load, known, ← exists_readAll_iff]
  simp only [Option.isNone_some, Bool.false_eq_true, if_false]
  constructor
  · intro done
    obtain ⟨all, read, laid⟩ : ∃ all, readAll file t = .ok all ∧ sectionOf all section_ = .ok loaded :=
      Run.bind_eq_ok_iff.mp done
    rw [sectionOf, known] at laid
    rw [storedIn, ← eq_of_readAll read]
    exact ⟨⟨all, read⟩, (Except.ok.inj laid).symm⟩
  · rintro ⟨⟨all, read⟩, rfl⟩
    rw [storedIn, ← eq_of_readAll read, read]
    change sectionOf all section_ = _
    rw [sectionOf, known]
    rfl

/-- **The options of a review are read as they should be exactly if its settings are harmless.** -/
theorem ofEntries_review_iff (distinct : stored.keys.Nodup) :
    Review.Options.ofEntries (merge reviewDefaults stored) = .ok (usedReview stored) ↔
      (∀ key : Text, key ∈ thresholdKeys → ∀ x, stored.get? key = some (.float x) →
        (Number.Dyadic.ofFloat? x).isSome) ∧
      ∀ n, stored.get? "similarity_threshold" = some (.int n) →
        (Number.floatOfInt? n).isSome := by
  have threshold : ∀ (key : Text) (n : Int), reviewDefaults.get? key = some (.int n) →
      (setting (merge reviewDefaults stored) key Value.toInteger n =
          .ok (used stored key threshold? n) ↔
        ∀ x, stored.get? key = some (.float x) → (Number.Dyadic.ofFloat? x).isSome) := by
    intro key n default_
    rw [setting_merge_iff (reads_threshold default_) distinct]
    exact harmless_threshold_iff default_
  have orphaned := threshold "orphaned_threshold" 90 rfl
  have single := threshold "single_use_threshold" 2 rfl
  have large := threshold "too_large_threshold" 50 rfl
  have small := threshold "too_small_threshold" 2 rfl
  have similarity : setting (merge reviewDefaults stored) "similarity_threshold" Value.toDouble
      (.ofFloat 0.8) = .ok (usedReview stored).similarity ↔
      ∀ n, stored.get? "similarity_threshold" = some (.int n) → (Number.floatOfInt? n).isSome := by
    have default_ : reviewDefaults.get? "similarity_threshold" = some (.float (.ofFloat 0.8)) := rfl
    rw [← harmless_similarity_iff default_]
    exact setting_merge_iff (reads_similarity default_) distinct
  have checks : setting (merge reviewDefaults stored) "enabled_checks" checksOf
      ({} : Review.Options).checks = .ok (usedReview stored).checks := by
    obtain ⟨vs, default_, names⟩ : ∃ vs, reviewDefaults.get? "enabled_checks" = some (.list vs) ∧
        checksOf (.list vs) = .ok ({} : Review.Options).checks := ⟨_, rfl, rfl⟩
    exact (setting_merge_iff (reads_checks default_ names) distinct).mpr
      (harmless_checks default_)
  refine ofEntries_eq_ok_iff.trans ?_
  simp only [thresholdKeys, List.forall_mem_cons, List.not_mem_nil, false_imp_iff, implies_true,
    and_true]
  constructor
  · rintro ⟨-, second, third, fourth, fifth, sixth⟩
    exact ⟨⟨orphaned.mp third, single.mp fourth, large.mp fifth, small.mp sixth⟩,
      similarity.mp second⟩
  · rintro ⟨⟨third, fourth, fifth, sixth⟩, second⟩
    exact ⟨checks, similarity.mpr second, orphaned.mpr third, single.mpr fourth, large.mpr fifth,
      small.mpr sixth⟩

/-- **The options of a scan are read as they should be exactly if its settings are harmless.** -/
theorem ofEntries_scan_iff (distinct : stored.keys.Nodup) :
    Workspace.Options.ofEntries (merge scanDefaults stored) = .ok (usedScan stored) ↔
      ∀ vs, stored.get? "extra_skip_dirs" = some (.list vs) → vs.all isSingle = true := by
  have skipped : setting (merge scanDefaults stored) "extra_skip_dirs" readSkipped [] =
      .ok (usedScan stored).extraSkipped ↔
      ∀ vs, stored.get? "extra_skip_dirs" = some (.list vs) → vs.all isSingle = true := by
    have default_ : scanDefaults.get? "extra_skip_dirs" = some (.list []) := rfl
    rw [← harmless_skipped_iff default_]
    exact setting_merge_iff (reads_skipped default_) distinct
  have truth : setting (merge scanDefaults stored) "respect_gitignore" readTruth true =
      .ok (usedScan stored).respectIgnoreFile := by
    have default_ : scanDefaults.get? "respect_gitignore" = some (.bool true) := rfl
    exact (setting_merge_iff (reads_truth default_) distinct).mpr (harmless_truth default_)
  rw [scanOptions_eq_ok_iff]
  exact ⟨fun both => skipped.mp both.1, fun single => ⟨skipped.mpr single, truth⟩⟩

/-- What has to hold for settings to be usable. -/
theorem of_loadsUsably (usable : LoadsUsably file t) :
    IsForgiven file t ∧
      Convertible (storedIn file t reviewSection) (storedIn file t scanSection) := by
  obtain ⟨review, scan, loaded, loaded', options, options'⟩ := usable
  obtain ⟨forgiven, rfl⟩ := (load_eq_ok_iff rfl).mp loaded
  obtain ⟨-, rfl⟩ := (load_eq_ok_iff rfl).mp loaded'
  obtain ⟨thresholds, similarity⟩ := (ofEntries_review_iff (nodup_storedIn file t _)).mp options
  have skipped := (ofEntries_scan_iff (nodup_storedIn file t _)).mp options'
  exact ⟨forgiven, thresholds, similarity, skipped⟩

/-- An infinity where a whole number is wanted. -/
def infinite : Text := "[refactoring]\norphaned_threshold = inf\n"

/-- A list among the directories to skip. -/
def nested : Text := "[scan]\nextra_skip_dirs = [[1]]\n"

/-- A name that begins with a comma, in a list that ends in one. -/
def commaFirst : Text := "[scan]\nextra_skip_dirs = [\",a\",]\n"

/-- The settings of a file with a text that spells a table. -/
theorem storedIn_homeWith {text : Text}
    (read : (Toml.read (Text.withLineFeeds text)).toOption = some all) (section_ : Text) :
    storedIn homeFile (homeWith text) section_ = settingsIn all section_ := by
  rw [storedIn, tableIn_homeWith, read]
  rfl

end CodeAtlas.Settings
