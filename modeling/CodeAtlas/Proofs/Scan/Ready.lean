/-
# Proofs.Scan.Ready -- the additional patterns that a scanner has ready

A scanner keeps the additional patterns of a language under the name of that language.  Whatever it
has been used for, what it keeps under a name are the patterns of *some* language of that name
(`Remembers`): a new scanner keeps nothing, and one more use adds the patterns of one language
(`Remembers.prepared`, `Remembers.scan`), hence every history of uses ends there
(`Reached.remembers`).

Nothing else tells a used scanner from a new one (`scan_congr`).  So what it remembers is never
noticed exactly if languages of one name have the same valid patterns (`transparent_iff`), as they do
where all names are different (`unambiguous_of_nodup`).
-/
import CodeAtlas.Proofs.Entries
import CodeAtlas.Proofs.Scan.Found

namespace CodeAtlas

set_option autoImplicit false

namespace Language.Table

/-- Languages of one name have the same valid additional patterns. -/
def Unambiguous (t : Table) : Prop :=
  ∀ d ∈ t.languages, ∀ d' ∈ t.languages, d.name = d'.name →
    ∀ ps, t.compileExtras d = .ok ps → t.compileExtras d' = .ok ps

theorem unambiguous_of_nodup {t : Table} (different : (t.languages.map (·.name)).Nodup) :
    t.Unambiguous := by
  intro d known d' known' same ps ready
  rwa [← List.inj_on_of_nodup_map different known known' same]

end Language.Table

namespace Scan.Scanner

/-- A scanner with this table, after any number of uses: it has been asked for the additional patterns
of a language, or to scan a document. -/
inductive Reached (t : Language.Table) : Scanner → Prop
  | fresh : Reached t { table := t }
  | requested {s : Scanner} (before : Reached t s) {d : Language.Descriptor}
      (known : d ∈ t.languages) : Reached t (s.prepared d)
  | scanned {s : Scanner} (before : Reached t s) (text filePath : Text)
      (languageId : Option Text) : Reached t (s.scan text filePath languageId).2

/-- What is ready under a name are the patterns of a language of that name. -/
structure Remembers (t : Language.Table) (s : Scanner) : Prop where
  table : s.table = t
  ready : ∀ name ps, s.ready.get? name = some ps →
    ∃ d ∈ t.languages, d.name = name ∧ t.compileExtras d = .ok ps

/-! ## One use -/

section Use

variable {t : Language.Table} {s : Scanner} {d : Language.Descriptor}

/-- The patterns that are used for a language are its own, or those of a language of its name. -/
theorem Remembers.extras (remembers : Remembers t s) (d : Language.Descriptor) :
    s.extras d = t.compileExtras d ∨
      ∃ d' ∈ t.languages, d'.name = d.name ∧ ∃ ps, t.compileExtras d' = .ok ps ∧
        s.extras d = .ok ps := by
  unfold Scanner.extras
  cases found : s.ready.get? d.name with
  | none =>
      left
      rw [remembers.table]
  | some ps =>
      right
      obtain ⟨d', known, same, ready⟩ := remembers.ready d.name ps found
      exact ⟨d', known, same, ps, ready, rfl⟩

theorem Remembers.prepared (remembers : Remembers t s) (known : d ∈ t.languages) :
    Remembers t (s.prepared d) := by
  unfold Scanner.prepared
  cases made : s.extras d with
  | error e => exact remembers
  | ok patterns =>
      refine ⟨remembers.table, ?_⟩
      intro name ps found
      simp only [Entries.set, Entries.get?_alter] at found
      by_cases here : name = d.name
      · rw [if_pos here] at found
        cases found
        rcases remembers.extras d with own | ⟨d', known', same, ps, ready, shared⟩
        · exact ⟨d, known, here.symm, own ▸ made⟩
        · rw [made] at shared
          exact ⟨d', known', same.trans here.symm, shared ▸ ready⟩
      · rw [if_neg here] at found
        exact remembers.ready name ps found

theorem Remembers.scan (remembers : Remembers t s) (text filePath : Text)
    (languageId : Option Text) : Remembers t (s.scan text filePath languageId).2 := by
  unfold Scanner.scan scanLines
  rw [remembers.table]
  cases resolved : t.resolve? languageId (some filePath) with
  | none => exact remembers
  | some d =>
      dsimp only
      split
      · exact remembers.prepared (mem_languages_of_resolve? resolved)
      · exact remembers

/-- Two scanners scan alike that have one table and use the same patterns for its languages. -/
theorem scan_congr {s' : Scanner} (table : s.table = s'.table)
    (extras : ∀ d ∈ s'.table.languages, s.extras d = s'.extras d) (text filePath : Text)
    (languageId : Option Text) :
    (s.scan text filePath languageId).1 = (s'.scan text filePath languageId).1 := by
  unfold Scanner.scan scanLines
  rw [table]
  cases resolved : s'.table.resolve? languageId (some filePath) with
  | none => rfl
  | some d =>
      have same : s.reader d = s'.reader d := by
        rw [reader, reader, table, extras d (mem_languages_of_resolve? resolved)]
      show (s.reader d).groups _ _ = (s'.reader d).groups _ _
      rw [same]

end Use

/-! ## Any number of uses -/

theorem Reached.remembers {t : Language.Table} {s : Scanner} (reached : Reached t s) :
    Remembers t s := by
  induction reached with
  | fresh => exact ⟨rfl, fun name ps found => by cases found⟩
  | requested before known ih => exact ih.prepared known
  | scanned before text filePath languageId ih => exact ih.scan text filePath languageId

/-- What a new scanner answers. -/
def answer (t : Language.Table) (document : Text × Text × Option Text) :
    Except Fault (List Group) :=
  (scan { table := t } document.1 document.2.1 document.2.2).1

variable {t : Language.Table} {s : Scanner}

theorem Reached.extras_eq (reached : Reached t s) (unambiguous : t.Unambiguous)
    {d : Language.Descriptor} (known : d ∈ t.languages) : s.extras d = t.compileExtras d := by
  rcases reached.remembers.extras d with own | ⟨d', known', same, ps, ready, shared⟩
  · exact own
  · rw [shared, unambiguous d' known' d known same ps ready]

theorem Reached.scan_eq (reached : Reached t s) (unambiguous : t.Unambiguous)
    (text filePath : Text) (languageId : Option Text) :
    (s.scan text filePath languageId).1 = answer t (text, filePath, languageId) := by
  apply scan_congr reached.remembers.table
  intro d known
  exact reached.extras_eq unambiguous known

theorem Reached.scanAll_eq (reached : Reached t s) (unambiguous : t.Unambiguous)
    (documents : List (Text × Text × Option Text)) :
    s.scanAll documents = documents.map (answer t) := by
  induction documents generalizing s with
  | nil => rfl
  | cons document documents ih =>
      obtain ⟨text, filePath, languageId⟩ := document
      have first := reached.scan_eq unambiguous text filePath languageId
      have later := ih (reached.scanned text filePath languageId)
      show (s.scan text filePath languageId).1 ::
        (s.scan text filePath languageId).2.scanAll documents = _
      rw [first, later, List.map_cons]

/-- **A scanner never shows what it has been used for exactly if languages of one name have the same
valid additional patterns.**  Then, after any number of scans and requests, the patterns it uses for a
language are those the table gives for it, and it answers any sequence of documents as a new scanner
answers each of them. -/
theorem transparent_iff (t : Language.Table) :
    (∀ s, Reached t s → (∀ d ∈ t.languages, s.extras d = t.compileExtras d) ∧
      ∀ documents, s.scanAll documents = documents.map (answer t)) ↔ t.Unambiguous := by
  constructor
  · intro transparent d known d' known' same ps ready
    -- Ask for the patterns of one language, then for those of the other.
    have after : Reached t (prepared { table := t } d) := Reached.fresh.requested known
    rw [← (transparent _ after).1 d' known']
    have made : extras { table := t } d = .ok ps := ready
    have kept : (Entries.get? (prepared { table := t } d).ready d'.name) = some ps := by
      unfold prepared
      rw [made]
      simp [Entries.set, Entries.get?_alter, same]
    unfold extras
    rw [kept]
  · intro unambiguous s reached
    exact ⟨fun d known => reached.extras_eq unambiguous known,
      fun documents => reached.scanAll_eq unambiguous documents⟩

example : Language.packaged.Unambiguous :=
  Language.Table.unambiguous_of_nodup (by decide +kernel)

/-- A file with two languages of one name, the first of which has an additional pattern. -/
def sharedNameFile : Text :=
  "[[languages]]\nname = \"A\"\nfile_types = [\"x\"]\nextra_patterns = [\"#(a)\"]\n" ++
    "comment_markers = \x7b line = \"//\" \x7d\n" ++
    "[[languages]]\nname = \"A\"\nfile_types = [\"y\"]\n" ++
    "comment_markers = \x7b line = \"//\" \x7d\n"

def sharedNameDocuments : List (Text × Text × Option Text) :=
  [("//", "a.x", none), ("// #a", "a.y", none)]

/-- Once the first language has been met, its pattern finds an annotation in a document of the second
one, which has no pattern of its own. -/
theorem scanAll_of_sharedName :
    ∃ t, Language.load Pattern.read (some sharedNameFile) = .ok t ∧
      scanAll { table := t } sharedNameDocuments =
        [.ok [], .ok [Group.placed { functionality := "a", filePath := "a.y", lines := [1] }]] ∧
      sharedNameDocuments.map (answer t) = [.ok [], .ok []] := by
  have run : (Language.load Pattern.read (some sharedNameFile)).toOption.map (fun t =>
      ((scanAll { table := t } sharedNameDocuments).map Except.toOption,
        (sharedNameDocuments.map (answer t)).map Except.toOption)) =
      some ([[], [Group.placed { functionality := "a", filePath := "a.y", lines := [1] }]].map some,
        [[], []].map some) := by decide +kernel
  obtain ⟨t, loaded, answers⟩ := Option.map_eq_some_iff.mp run
  obtain ⟨used, unused⟩ := Prod.mk.inj answers
  exact ⟨t, Run.toOption_eq_some_iff.mp loaded, Run.map_toOption_eq_iff.mp used,
    Run.map_toOption_eq_iff.mp unused⟩

end Scan.Scanner

end CodeAtlas
