/-
# Proofs.Scan.Found -- the groups of one file

Every group of a document has a name, the path of the document, the place that belongs to its name,
and a run of lines inside the document; and no two groups have the same lines (`found_of_groups`).

With the packaged languages a document is always read: their markers are texts, and their additional
patterns are in order (`exists_scan`).
-/
import CodeAtlas.Proofs.Language.Load
import CodeAtlas.Proofs.Scan.Coverage
import CodeAtlas.Proofs.Text.Pieces
import CodeAtlas.Workspace.Scan

namespace CodeAtlas.Scan

set_option autoImplicit false

/-- **A group as it is found** in a document of `count` lines. -/
structure Found (filePath : Text) (count : Nat) (g : Group) : Prop where
  name : g.functionality ≠ []
  filePath : g.filePath = filePath
  placed : g.placed = g
  run : ∃ first last : Int, 1 ≤ first ∧ first ≤ last ∧ last ≤ count ∧
    g.lines = LineRanges.span first last

/-! ## Names -/

theorem name_ne_nil_of_ofParts? {name description : Text} {a : Annotation}
    (read : Annotation.ofParts? name description = some a) : a.name ≠ [] := by
  unfold Annotation.ofParts? at read
  dsimp only at read
  split at read
  · cases read
  · rename_i solid
    cases read
    simpa using solid

theorem name_ne_nil_of_ofMatch {p : Pattern} {cs : Pattern.Captures} {a : Annotation}
    (read : Annotation.ofMatch p cs = .ok (some a)) : a.name ≠ [] := by
  unfold Annotation.ofMatch at read
  split at read
  · cases read
  · exact name_ne_nil_of_ofParts? (Except.ok.inj read)

/-- An annotation has a name. -/
theorem name_ne_nil_of_read {main : Pattern} {extras : Except Fault (List Pattern)} {t : Text}
    {a : Annotation} (read : Annotation.read main extras t = .ok (some a)) : a.name ≠ [] := by
  unfold Annotation.read at read
  split at read
  · exact name_ne_nil_of_ofMatch read
  · obtain ⟨patterns, -, read⟩ := Run.bind_eq_ok_iff.mp read
    split at read
    · exact name_ne_nil_of_ofMatch read
    · cases read

/-! ## Groups -/

/-- **What the groups of a document are like.** -/
theorem found_of_groups {r : Reader} {filePath : Text} {lines : List Text} {gs : List Group}
    (read : r.groups filePath lines = .ok gs) :
    (∀ g ∈ gs, Found filePath lines.length g) ∧ (gs.map (·.lines)).Nodup := by
  rw [Reader.groups, Run.map_eq_ok_iff] at read
  obtain ⟨fs, run, rfl⟩ := read
  have exact_ := (accounts_of_findings run).exact filePath
  constructor
  · intro g member
    obtain ⟨first, forward, last, lines⟩ := exact_.run g member
    obtain ⟨whole, a, ⟨_, _, -, -, _, -, -, read⟩, named, -, -⟩ := exact_.sound g member
    obtain ⟨f, -, rfl⟩ := List.mem_map.mp member
    exact ⟨named ▸ name_ne_nil_of_read read, rfl, rfl, _, _, first, forward, last, lines⟩
  · rw [List.Nodup, List.pairwise_map]
    refine exact_.apart.imp_of_mem fun {g h} member _ before same => ?_
    have forward := (exact_.run g member).2.1
    have first : g.firstLine = h.firstLine := by rw [Group.firstLine, Group.firstLine, same]
    omega

/-! ## The packaged languages -/

theorem dependable_packaged : Language.packaged.Dependable := by
  constructor <;> decide +kernel

theorem mem_languages_of_resolve? {t : Language.Table} {languageId filePath : Option Text}
    {d : Language.Descriptor} (resolved : t.resolve? languageId filePath = some d) :
    d ∈ t.languages := by
  have found : ∀ {fileType}, t.find? fileType = some d → d ∈ t.languages := fun {fileType} h => by
    rw [Language.Table.find?] at h
    split at h
    · cases h
    · exact List.mem_of_find?_eq_some h
  have default_ : t.default? = some d → d ∈ t.languages := fun h => by
    rw [Language.Table.default?] at h
    simp only [Option.orElse_eq_orElse, Option.orElse_eq_or, Option.or_eq_some_iff] at h
    rcases h with h | ⟨-, h | ⟨-, h⟩⟩
    · exact List.mem_of_find?_eq_some h
    · exact List.mem_of_find?_eq_some h
    · exact List.mem_of_head? h
  rw [Language.Table.resolve?] at resolved
  simp only [Option.orElse_eq_orElse, Option.orElse_eq_or, Option.or_eq_some_iff] at resolved
  rcases resolved with h | ⟨-, h | ⟨-, h⟩⟩
  · exact found h
  · exact found h
  · exact default_ h

/-- **Every document is read** with the packaged languages. -/
theorem exists_scan (text filePath : Text) (languageId : Option Text) :
    ∃ gs, (Workspace.scanner.scan text filePath languageId).1 = .ok gs ∧
      (∀ g ∈ gs, Found filePath (Text.splitOn '\n' text).length g) ∧ (gs.map (·.lines)).Nodup := by
  rw [Scanner.scan, Scanner.scanLines]
  cases resolved : Workspace.scanner.table.resolve? languageId (some filePath) with
  | none => exact ⟨[], rfl, by simp, List.nodup_nil⟩
  | some d =>
      have known := mem_languages_of_resolve? resolved
      obtain ⟨ps, ready, grouped⟩ :=
        Language.Table.exists_compileExtras (dependable_packaged.patterns d known)
      obtain ⟨fs, run⟩ := exists_findings (r := Workspace.scanner.reader d)
        (dependable_packaged.markers d known) ready (by decide : 1 ≤ Language.packaged.pattern.groups) grouped
        1 (Text.splitOn '\n' text)
      have read : (Workspace.scanner.reader d).groups filePath (Text.splitOn '\n' text) =
          .ok (fs.map (Finding.group filePath)) := by
        rw [Reader.groups, run]
        rfl
      exact ⟨_, read, found_of_groups read⟩

end CodeAtlas.Scan
