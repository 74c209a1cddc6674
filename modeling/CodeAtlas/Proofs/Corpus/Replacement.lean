/-
# Proofs.Corpus.Replacement -- a new scan of one file touches nothing else

What a corpus has for a file is, under each type, the groups of that type that are in the file
(`ofFile`).  A new scan of a file decides that for the file itself and leaves it as it is for all
others (`ofFile_replaceFile`).  From that everything else follows: scans of two files can change
places, whatever types their groups come under.

That is not all, for a type may lose its place among the types when it is left without groups.  But
the groups of the other files are not moved against each other (`restrict_replaceFile`), and of two
scans of one file the second undoes what the first has done (`replaceFile_replaceFile`), the places
of the types included.
-/
import CodeAtlas.Proofs.Corpus

namespace CodeAtlas.Corpus

set_option autoImplicit false

variable {c : Corpus} {file fileType : Text} {gs hs : List Group}

/-- The groups of a file under a type. -/
def ofFile (c : Corpus) (fileType file : Text) : List Group :=
  ((c.get? fileType).getD []).filter (·.filePath == file)

theorem ofFile_eq (distinct : c.keys.Nodup) (fileType file : Text) :
    c.ofFile fileType file =
      ((c.tagged.filter (·.2.filePath == file)).filter (·.1 == fileType)).map Prod.snd := by
  rw [ofFile, ← filter_tagged distinct, List.filter_map, List.filter_comm]
  rfl

/-! ## The groups of other files -/

theorem restrict_add {p : Group → Bool} (none_ : ∀ g ∈ gs, p g = false) :
    (c.add fileType gs).restrict p = c.restrict p := by
  have nothing : gs.filter p = [] := List.filter_eq_nil_iff.mpr (by simpa using none_)
  induction c with
  | nil => simp [add, Entries.alter, restrict, nothing]
  | cons e c ih =>
      rw [restrict, restrict] at ih
      rw [add, Entries.alter_cons]
      split
      · simp [restrict, nothing]
      · simp only [restrict, List.map_cons, List.filter_cons]
        rw [← add, ih]

/-- **The other files' groups stay where they are**, under their types and in their order. -/
theorem restrict_replaceFile (own : ∀ g ∈ gs, g.filePath = file) :
    (c.replaceFile file fileType gs).restrict (·.filePath != file) =
      c.restrict (·.filePath != file) := by
  have settled : (c.restrict (·.filePath != file)).restrict (·.filePath != file) =
      c.restrict (·.filePath != file) := by
    apply restrict_eq_self
    · intro e member
      simpa using (List.mem_filter.mp member).2
    · intro e member g inside
      obtain ⟨e', -, rfl⟩ := List.mem_map.mp (List.mem_filter.mp member).1
      exact (List.mem_filter.mp inside).2
  rw [replaceFile]
  split
  · exact settled
  · exact (restrict_add fun g member => by simp [own g member]).trans settled

theorem filter_ne_replaceFile (own : ∀ g ∈ gs, g.filePath = file) :
    (c.replaceFile file fileType gs).tagged.filter (·.2.filePath != file) =
      c.tagged.filter (·.2.filePath != file) := by
  rw [← tagged_restrict _ (·.filePath != file), ← tagged_restrict _ (·.filePath != file),
    restrict_replaceFile own]

/-! ## The groups of the file -/

/-- **The groups of the file are the new ones**, under the one type. -/
theorem filter_eq_replaceFile (own : ∀ g ∈ gs, g.filePath = file) :
    (c.replaceFile file fileType gs).tagged.filter (·.2.filePath == file) =
      gs.map (fileType, ·) := by
  obtain ⟨front, back, before, after⟩ := exists_tagged_replaceFile c file fileType gs
  have others : ∀ x ∈ front ++ back, ¬ (x.2.filePath == file) = true := by
    intro x member
    rw [← before] at member
    simpa using (List.mem_filter.mp member).2
  rw [List.forall_mem_append] at others
  rw [after, List.filter_append, List.filter_append, List.filter_eq_nil_iff.mpr others.1,
    List.filter_eq_nil_iff.mpr others.2, List.nil_append, List.append_nil, List.filter_eq_self]
  intro x member
  obtain ⟨g, inside, rfl⟩ := List.mem_map.mp member
  simp [own g inside]

/-- **A new scan of a file decides about that file and about no other.** -/
theorem ofFile_replaceFile (distinct : c.keys.Nodup) (own : ∀ g ∈ gs, g.filePath = file)
    (type other : Text) :
    (c.replaceFile file fileType gs).ofFile type other =
      if other = file then (if type = fileType then gs else []) else c.ofFile type other := by
  have distinct' := (compact_replaceFile distinct file fileType gs).nodup
  rw [ofFile_eq distinct', ofFile_eq distinct]
  by_cases same : other = file
  · subst same
    rw [if_pos rfl, filter_eq_replaceFile own]
    by_cases here : type = fileType
    · simp [List.filter_map, Function.comp_def, here]
    · simp [List.filter_map, Function.comp_def, here, Ne.symm here]
  · -- Whatever is in another file is not in this one.
    have narrower : ∀ xs : List (Text × Group), xs.filter (·.2.filePath == other) =
        (xs.filter (·.2.filePath != file)).filter (·.2.filePath == other) := by
      intro xs
      rw [List.filter_filter]
      refine List.filter_congr fun x _ => ?_
      by_cases inside : x.2.filePath = other
      · simp [inside, same]
      · simp [inside]
    rw [if_neg same, narrower, filter_ne_replaceFile own, ← narrower]

/-! ## Two scans -/

/-- **Of two scans of one file the second counts.** -/
theorem replaceFile_replaceFile (own : ∀ g ∈ gs, g.filePath = file) (type : Text)
    (hs : List Group) :
    (c.replaceFile file fileType gs).replaceFile file type hs = c.replaceFile file type hs := by
  rw [replaceFile, restrict_replaceFile own, ← replaceFile]

/-- Scans of two files can change places. -/
theorem ofFile_replaceFile_comm {file' fileType' : Text} (distinct : c.keys.Nodup)
    (own : ∀ g ∈ gs, g.filePath = file) (own' : ∀ h ∈ hs, h.filePath = file')
    (different : file' ≠ file) (type other : Text) :
    ((c.replaceFile file fileType gs).replaceFile file' fileType' hs).ofFile type other =
      ((c.replaceFile file' fileType' hs).replaceFile file fileType gs).ofFile type other := by
  have first := (compact_replaceFile distinct file fileType gs).nodup
  have first' := (compact_replaceFile distinct file' fileType' hs).nodup
  rw [ofFile_replaceFile first own', ofFile_replaceFile distinct own, ofFile_replaceFile first' own,
    ofFile_replaceFile distinct own']
  by_cases here : other = file
  · subst here
    simp [Ne.symm different]
  · simp [here]

/-- **A new scan of one file touches nothing else.**  All groups of other files keep their types and
their order, the groups of the file are exactly the new ones, and no type is without groups.  To do it
twice is to do it once, and with another file's scan it can change places. -/
theorem replaceFile_exact (distinct : c.keys.Nodup) (fileType : Text)
    (own : ∀ g ∈ gs, g.filePath = file) :
    let c' := c.replaceFile file fileType gs
    Compact c' ∧
    c'.tagged.filter (·.2.filePath != file) = c.tagged.filter (·.2.filePath != file) ∧
    c'.tagged.filter (·.2.filePath == file) = gs.map (fileType, ·) ∧
    (∀ type other, c'.ofFile type other =
      if other = file then (if type = fileType then gs else []) else c.ofFile type other) ∧
    c'.replaceFile file fileType gs = c' ∧
    ∀ file' fileType' hs, file' ≠ file → (∀ h ∈ hs, h.filePath = file') → ∀ type other,
      (c'.replaceFile file' fileType' hs).ofFile type other =
        ((c.replaceFile file' fileType' hs).replaceFile file fileType gs).ofFile type other := by
  intro c'
  refine ⟨compact_replaceFile distinct file fileType gs, filter_ne_replaceFile own,
    filter_eq_replaceFile own, ofFile_replaceFile distinct own,
    replaceFile_replaceFile own fileType gs, ?_⟩
  intro file' fileType' hs different own'
  exact ofFile_replaceFile_comm distinct own own' different

/-- A file with groups under two types, one of them shared with another file. -/
def scattered : Corpus :=
  [("py", [{ functionality := "a", filePath := "/p", lines := [1] }]),
   ("js", [{ functionality := "b", filePath := "/p", lines := [2] },
           { functionality := "c", filePath := "/q", lines := [3] }])]

/-- The first type goes and comes back at the end; a scan that finds nothing in the other file leaves
no more than the new group. -/
theorem replaceFile_exact_scattered :
    let found : Group := { functionality := "d", filePath := "/p", lines := [4] }
    let other : Group := { functionality := "c", filePath := "/q", lines := [3] }
    scattered.replaceFile "/p" "py" [found] = ([("js", [other]), ("py", [found])] : Corpus) ∧
      (scattered.replaceFile "/p" "py" [found]).tagged.filter (·.2.filePath != "/p".toList) =
        [("js".toList, other)] ∧
      ((scattered.replaceFile "/q" "js" []).replaceFile "/p" "py" [found]).ofFile "py" "/p" =
        [found] := by
  intro found other
  have distinct : (Entries.keys scattered).Nodup := by decide
  have own : ∀ g ∈ [found], g.filePath = "/p".toList := by decide
  obtain ⟨-, others, -, -, -, swap⟩ := replaceFile_exact distinct "py" own
  refine ⟨by decide, others.trans (by decide), ?_⟩
  rw [← swap "/q" "js" [] (by decide) (by decide) "py" "/p"]
  decide

end CodeAtlas.Corpus
