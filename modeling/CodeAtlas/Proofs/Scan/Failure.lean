/-
# Proofs.Scan.Failure -- when a document cannot be scanned

A language file may declare markers that are no texts and additional patterns of any kind, and both
are only used when a document asks for them.  So a file that is loaded may still make a scan fail, at
a line that the reading comes to (`Reader.Meets`) and for one of four causes (`Reader.Harmed`):

* a marker that is no text is looked for in the line, or in the line after its comment;
* the main pattern finds nothing in the comment on the line, and the additional patterns cannot be
  made ready;
* the main pattern finds nothing there, and the first additional pattern that finds something has no
  group to take the name from.

`exists_step_iff` says that a step fails for these causes only, and for each of them;
`exists_findings_iff` carries this through a reading.  For the main pattern nothing has to be asked,
because loading has seen to its groups.  Where all markers are texts, and every additional pattern is
invalid or has a group, no document fails (`Table.Dependable`).  All this holds whatever makes patterns
of their texts.
-/
import CodeAtlas.Proofs.Language.Load
import CodeAtlas.Proofs.Scan.Ready

namespace CodeAtlas

set_option autoImplicit false

/-! ## Causes -/

namespace Scan.Reader

variable {r : Reader}

/-- The patterns cannot say what a comment holds. -/
inductive Unreadable (r : Reader) (t : Text) : Prop
  /-- The additional patterns are asked for and cannot be made ready. -/
  | unready {f : Fault} (passed : r.main.search t = none) (failed : r.extras = .error f) :
      Unreadable r t
  /-- The pattern that finds something has no group. -/
  | groupless {ps : List Pattern} {p : Pattern} {cs : Pattern.Captures}
      (passed : r.main.search t = none) (ready : r.extras = .ok ps)
      (first : Annotation.firstMatch? ps t = some (p, cs)) (none_ : p.groups = 0) : Unreadable r t

/-- A line that cannot be read, given the lines after it. -/
inductive Harmed (r : Reader) (line : Text) (after : List Text) : Prop
  /-- A marker that is no text is looked for in the line. -/
  | marker (fault : r.markers.classifyFault (Text.trim line) = true) : Harmed r line after
  /-- The line has a comment that the patterns cannot read. -/
  | comment {c : Comment} (found : r.markers.classify line = .ok (some c))
      (unreadable : r.Unreadable c.text) : Harmed r line after
  /-- A marker that is no text is looked for in the line after an annotation. -/
  | capture {a : Annotation} (carries : r.Carries line true a)
      (fault : r.markers.captureFault r.strategy after = true) : Harmed r line after

/-- Reading these lines comes to a line, and `after` are the lines after it.  Captured lines are not
come to. -/
inductive Meets (r : Reader) : List Text → Text → List Text → Prop
  | here (line : Text) (after : List Text) : Meets r (line :: after) line after
  | later {first line : Text} {rest after : List Text} {a? : Option Annotation} {k : Nat}
      (stepped : r.step first rest = .ok (a?, k)) (met : Meets r (rest.drop k) line after) :
      Meets r (first :: rest) line after

/-! ## One line -/

theorem exists_ofMatch_iff {p : Pattern} {cs : Pattern.Captures} :
    (∃ a?, Annotation.ofMatch p cs = .ok a?) ↔ p.groups ≠ 0 := by
  unfold Annotation.ofMatch
  by_cases none_ : p.groups = 0
  · rw [if_pos none_]
    exact iff_of_false Run.not_exists_ok fun some_ => some_ none_
  · rw [if_neg none_]
    exact iff_of_true ⟨_, rfl⟩ none_

/-- With patterns that are ready a comment is lost only on one of them without a group. -/
theorem unreadable_iff_of_ready {t : Text} {ps : List Pattern} (passed : r.main.search t = none)
    (ready : r.extras = .ok ps) :
    r.Unreadable t ↔ ∃ p cs, Annotation.firstMatch? ps t = some (p, cs) ∧ p.groups = 0 := by
  constructor
  · rintro (⟨-, failed⟩ | ⟨-, ready', first, none_⟩)
    · rw [ready] at failed
      cases failed
    · rw [ready] at ready'
      cases ready'
      exact ⟨_, _, first, none_⟩
  · rintro ⟨p, cs, first, none_⟩
    exact .groupless passed ready first none_

/-- **A comment can be read exactly if the patterns can say what it holds.** -/
theorem exists_read_iff (grouped : 1 ≤ r.main.groups) (t : Text) :
    (∃ a?, Annotation.read r.main r.extras t = .ok a?) ↔ ¬ r.Unreadable t := by
  unfold Annotation.read
  cases main : r.main.search t with
  | some cs =>
      -- The main pattern decides, and it has a group.
      refine iff_of_true (exists_ofMatch_iff.mpr (by omega)) ?_
      rintro (⟨passed, -⟩ | ⟨passed, -, -, -⟩) <;> rw [main] at passed <;> cases passed
  | none =>
      cases extras : r.extras with
      | error f =>
          refine iff_of_false Run.not_exists_ok fun readable => readable ?_
          exact .unready main extras
      | ok ps =>
          rw [Run.ok_bind, unreadable_iff_of_ready main extras]
          cases first : Annotation.firstMatch? ps t with
          | none => exact iff_of_true ⟨none, rfl⟩ (by simp)
          | some found =>
              obtain ⟨p, cs⟩ := found
              dsimp only
              rw [exists_ofMatch_iff, not_iff_not]
              constructor
              · intro none_
                exact ⟨p, cs, rfl, none_⟩
              · rintro ⟨_, _, ⟨⟩, none_⟩
                exact none_

/-- A line whose comment is known meets no marker that is no text. -/
theorem classifyFault_of_classify {line : Text} {c? : Option Comment}
    (classified : r.markers.classify line = .ok c?) :
    r.markers.classifyFault (Text.trim line) = false := by
  unfold Language.Markers.classify at classified
  split at classified
  · cases classified
  · rename_i clean
    exact Bool.eq_false_iff.mpr clean

/-- Once a comment has been read, only the capture is left to fail. -/
theorem harmed_iff_of_read {line : Text} {after : List Text} {c : Comment} {a? : Option Annotation}
    (classified : r.markers.classify line = .ok (some c))
    (readable : ¬ r.Unreadable c.text)
    (read : Annotation.read r.main r.extras c.text = .ok a?) :
    r.Harmed line after ↔
      a?.isSome = true ∧ c.wholeLine = true ∧ r.markers.captureFault r.strategy after = true := by
  constructor
  · rintro (fault | ⟨found, unreadable⟩ | ⟨⟨c', found, whole, carried⟩, fault⟩)
    · rw [classifyFault_of_classify classified] at fault
      cases fault
    · rw [classified] at found
      cases found
      exact absurd unreadable readable
    · rw [classified] at found
      cases found
      rw [read] at carried
      cases carried
      exact ⟨rfl, whole, fault⟩
  · rintro ⟨some_, whole, fault⟩
    obtain ⟨a, rfl⟩ := Option.isSome_iff_exists.mp some_
    exact .capture ⟨c, classified, whole, read⟩ fault

/-- **A step fails exactly at a harmed line.** -/
theorem exists_step_iff (grouped : 1 ≤ r.main.groups) (line : Text) (after : List Text) :
    (∃ answer, r.step line after = .ok answer) ↔ ¬ r.Harmed line after := by
  unfold step
  cases classified : r.markers.classify line with
  | error f =>
      refine iff_of_false Run.not_exists_ok fun unharmed => unharmed (.marker ?_)
      unfold Language.Markers.classify at classified
      split at classified
      · assumption
      · cases classified
  | ok c? =>
      rw [Run.ok_bind]
      cases c? with
      | none =>
          refine iff_of_true ⟨(none, 0), rfl⟩ ?_
          rintro (fault | ⟨found, -⟩ | ⟨⟨c, found, -⟩, -⟩)
          · rw [classifyFault_of_classify classified] at fault
            cases fault
          · rw [classified] at found
            cases found
          · rw [classified] at found
            cases found
      | some c =>
          dsimp only
          have readable := exists_read_iff grouped c.text
          cases read : Annotation.read r.main r.extras c.text with
          | error f =>
              refine iff_of_false Run.not_exists_ok fun unharmed => ?_
              rw [read] at readable
              refine Run.not_exists_ok (readable.mpr fun unreadable => ?_)
              exact unharmed (.comment classified unreadable)
          | ok a? =>
              have readable : ¬ r.Unreadable c.text := readable.mp ⟨a?, read⟩
              rw [harmed_iff_of_read classified readable read, Run.ok_bind]
              cases a? with
              | none => exact iff_of_true ⟨(none, 0), rfl⟩ (by simp)
              | some a =>
                  cases whole : c.wholeLine with
                  | false => exact iff_of_true ⟨(some a, 0), by simp; rfl⟩ (by simp)
                  | true =>
                      unfold Language.Markers.captured
                      cases fault : r.markers.captureFault r.strategy after with
                      | true => simp [bind, Except.bind]
                      | false => simp [bind, Except.bind, pure, Except.pure]

/-! ## A reading -/

/-- **A reading fails exactly if it comes to a harmed line.** -/
theorem exists_findings_iff (grouped : 1 ≤ r.main.groups) (n : Nat) (lines : List Text) :
    (∃ fs, r.findings n lines = .ok fs) ↔
      ∀ line after, r.Meets lines line after → ¬ r.Harmed line after := by
  induction n, lines using Reader.findings.induct with
  | case1 n => exact iff_of_true ⟨[], by rw [findings]⟩ fun line after met => by cases met
  | case2 n first rest ih =>
      constructor
      · rintro ⟨fs, run⟩ line after met
        rw [findings, Run.bind_eq_ok_iff] at run
        obtain ⟨⟨a?, k⟩, stepped, run⟩ := run
        obtain ⟨later, run, -⟩ := Run.bind_eq_ok_iff.mp run
        cases met with
        | here => exact (exists_step_iff grouped _ _).mp ⟨_, stepped⟩
        | later stepped' met =>
            rw [stepped] at stepped'
            cases stepped'
            exact (ih k).mp ⟨later, run⟩ line after met
      · intro unharmed
        obtain ⟨⟨a?, k⟩, stepped⟩ :=
          (exists_step_iff grouped first rest).mpr (unharmed _ _ (.here first rest))
        obtain ⟨later, run⟩ := (ih k).mpr fun line after met =>
          unharmed line after (.later stepped met)
        refine ⟨(a?.map (⟨n, k, ·⟩)).toList ++ later, ?_⟩
        rw [findings, stepped, Run.ok_bind]
        dsimp only
        rw [run]
        rfl

end Scan.Reader

/-! ## Scanners -/

namespace Scan.Scanner

variable {t : Language.Table} {s : Scanner}

/-- Whatever a scanner has been used for, the patterns it uses for a language of a table that can be
depended on have a group. -/
theorem Reached.exists_extras (reached : Reached t s) (dependable : t.Dependable)
    {d : Language.Descriptor} (known : d ∈ t.languages) :
    ∃ ps, s.extras d = .ok ps ∧ ∀ p ∈ ps, 1 ≤ p.groups := by
  have own := fun d (known : d ∈ t.languages) =>
    Language.Table.exists_compileExtras (t := t) (dependable.patterns d known)
  rcases reached.remembers.extras d with same | ⟨d', known', -, ps, ready, shared⟩
  · rw [same]
    exact own d known
  · obtain ⟨ps', ready', grouped⟩ := own d' known'
    rw [ready] at ready'
    cases ready'
    exact ⟨ps, shared, grouped⟩

/-- A scan fails exactly if its reading does. -/
theorem exists_scan_iff (table : s.table = t) (text filePath : Text) (languageId : Option Text) :
    (∃ gs, (s.scan text filePath languageId).1 = .ok gs) ↔
      ∀ d, t.resolve? languageId (some filePath) = some d →
        ∃ fs, (s.reader d).findings 1 (Text.splitOn '\n' text) = .ok fs := by
  unfold scan scanLines
  rw [table]
  cases resolved : t.resolve? languageId (some filePath) with
  | none => exact iff_of_true ⟨[], rfl⟩ fun d known => by cases known
  | some d =>
      simp only [Option.some.injEq, forall_eq']
      exact Run.exists_map_iff

/-- **When a document can be scanned.**  A scanner with a table that has been loaded, whatever makes
patterns of their texts and whatever it has been used for, gives the groups of a document exactly if no
line to which the reading in the language of the document comes is harmed.  If all markers are texts
and every additional pattern is invalid or has a group, that is so for every document. -/
theorem scan_succeeds_iff {compile : Pattern.Compiler} {text? : Option Text}
    (loaded : Language.load compile text? = .ok t) (reached : Reached t s) :
    (∀ text filePath languageId, (∃ gs, (s.scan text filePath languageId).1 = .ok gs) ↔
      ∀ d, t.resolve? languageId (some filePath) = some d →
        ∀ line after, (s.reader d).Meets (Text.splitOn '\n' text) line after →
          ¬ (s.reader d).Harmed line after) ∧
      (t.Dependable → ∀ text filePath languageId,
        ∃ gs, (s.scan text filePath languageId).1 = .ok gs) := by
  have table := reached.remembers.table
  have grouped : 1 ≤ s.table.pattern.groups := by
    have := Language.grouped_of_load loaded
    rw [table]
    omega
  refine ⟨fun text filePath languageId => ?_, fun dependable text filePath languageId => ?_⟩
  · rw [exists_scan_iff table]
    refine forall_congr' fun d => forall_congr' fun _ => ?_
    exact Reader.exists_findings_iff (r := s.reader d) grouped 1 _
  · rw [exists_scan_iff table]
    intro d resolved
    have known := mem_languages_of_resolve? resolved
    obtain ⟨ps, ready, all⟩ := reached.exists_extras dependable known
    exact exists_findings (r := s.reader d) (dependable.markers d known) ready grouped all 1 _

/-- The fallback can be depended on, also after a document has asked for additional patterns. -/
theorem scan_succeeds_iff_fallback :
    let s := (scan { table := Language.fallback } "// TODO" "a.js" none).2
    Language.load Pattern.read none = .ok Language.fallback ∧ Reached Language.fallback s ∧
      Language.fallback.Dependable ∧ ∃ gs, (s.scan "// @group login" "b.js" none).1 = .ok gs := by
  intro s
  have loaded : Language.load Pattern.read none = .ok Language.fallback := rfl
  have reached : Reached Language.fallback s := Reached.fresh.scanned _ _ _
  have dependable : Language.fallback.Dependable := ⟨by decide, by decide⟩
  exact ⟨loaded, reached, dependable, (scan_succeeds_iff loaded reached).2 dependable _ _ _⟩

/-- A file with an additional pattern that has no group, and with a marker that is a number. -/
def harmfulFile : Text :=
  "[[languages]]\nname = \"A\"\nfile_types = [\"x\"]\nextra_patterns = [\"hello\"]\n" ++
    "comment_markers = \x7b line = \"//\" \x7d\n" ++
    "[[languages]]\nname = \"B\"\nfile_types = [\"y\"]\n" ++
    "comment_markers = \x7b line = 5 \x7d\n"

/-- The file is loaded, and in neither of its languages can a greeting be scanned. -/
theorem scan_of_harmful :
    ∃ t, Language.load Pattern.read (some harmfulFile) = .ok t ∧
      ¬ (∃ gs, (scan { table := t } "// hello" "a.x" none).1 = .ok gs) ∧
      ¬ ∃ gs, (scan { table := t } "// hello" "a.y" none).1 = .ok gs := by
  have run : (Language.load Pattern.read (some harmfulFile)).toOption.map (fun t =>
      ((scan { table := t } "// hello" "a.x" none).1.toOption.isNone,
        (scan { table := t } "// hello" "a.y" none).1.toOption.isNone)) = some (true, true) := by
    decide +kernel
  obtain ⟨t, loaded, failures⟩ := Option.map_eq_some_iff.mp run
  obtain ⟨groupless, number⟩ := Prod.mk.inj failures
  refine ⟨t, Run.toOption_eq_some_iff.mp loaded, ?_, ?_⟩
  · rintro ⟨gs, scanned⟩
    rw [scanned] at groupless
    cases groupless
  · rintro ⟨gs, scanned⟩
    rw [scanned] at number
    cases number

end Scan.Scanner

end CodeAtlas
