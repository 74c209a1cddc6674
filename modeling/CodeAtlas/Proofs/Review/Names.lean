/-
# Proofs.Review.Names -- one name spelled twice, and two names that are alike

Spellings of one name have the same folded form.  There is one issue for every form that two names or
more have, and it is about all of them (`duplicates_eq`): the forms are distinct, so no name is in two
of these issues, and any two names of one form are in the same.

Names of different forms are compared two by two.  Every two names are one pair, and they are as alike
in one order as in the other, so there is one issue about them or none, as the threshold says
(`countP_similar`).  Names of one form are passed over, which is why the two checks never report the
same pair.
-/
import CodeAtlas.Proofs.Correspondence
import CodeAtlas.Proofs.Naming.EditDistance
import CodeAtlas.Review.Check

namespace CodeAtlas.Review

set_option autoImplicit false

variable {o : Options} {ds : Definitions} {i j : Issue} {a b : Text}

/-! ## Names of one form -/

/-- The names with a folded form, in their order. -/
def variants (ds : Definitions) (form : Text) : List Text := ds.keys.filter (folded · == form)

theorem mem_variants {form : Text} : a ∈ variants ds form ↔ a ∈ ds.keys ∧ folded a = form := by
  rw [variants, List.mem_filter, beq_iff_eq]

/-- The forms that two names or more have. -/
def sharedForms (ds : Definitions) : List Text :=
  (Text.distinct (ds.keys.map folded)).filter fun form => 2 ≤ (variants ds form).length

theorem nodup_sharedForms (ds : Definitions) : (sharedForms ds).Nodup :=
  (Text.nodup_distinct _).filter _

/-- **There is one issue for every shared form**, about all names of that form. -/
theorem duplicates_eq (ds : Definitions) :
    duplicates ds = (sharedForms ds).map fun form => duplicateIssue ds (variants ds form) := by
  have collected : spellings ds = Entries.collected folded id ds.keys := rfl
  rw [duplicates, collected, Entries.collected_eq, Entries.values, List.map_map, List.filter_map,
    List.map_map, sharedForms]
  simp only [List.map_id]
  rfl

theorem mem_duplicates_iff :
    i ∈ duplicates ds ↔ ∃ form, 2 ≤ (variants ds form).length ∧
      duplicateIssue ds (variants ds form) = i := by
  rw [duplicates_eq, List.mem_map]
  refine exists_congr fun form => and_congr_left fun _ => ?_
  rw [sharedForms, List.mem_filter, decide_eq_true_iff, and_iff_right_iff_imp]
  intro shared
  obtain ⟨name, member⟩ := List.exists_mem_of_length_pos (Nat.zero_lt_of_lt shared)
  obtain ⟨known, rfl⟩ := mem_variants.mp member
  exact Text.mem_distinct.mpr (List.mem_map_of_mem known)

/-- Duplicates are all the names with one folded form. -/
theorem of_mem_duplicates (member : i ∈ duplicates ds) :
    ∃ form, i.affected = variants ds form := by
  obtain ⟨form, -, rfl⟩ := mem_duplicates_iff.mp member
  exact ⟨form, rfl⟩

theorem folded_of_mem_duplicates (member : i ∈ duplicates ds) (ha : a ∈ i.affected)
    (hb : b ∈ i.affected) : folded a = folded b := by
  obtain ⟨form, affected⟩ := of_mem_duplicates member
  rw [affected, mem_variants] at ha hb
  exact ha.2.trans hb.2.symm

/-- **Two names are in one issue exactly if they have one form.** -/
theorem exists_duplicate_iff (ha : a ∈ ds.keys) (hb : b ∈ ds.keys) (different : a ≠ b) :
    (∃ i ∈ duplicates ds, a ∈ i.affected ∧ b ∈ i.affected) ↔ folded a = folded b := by
  constructor
  · rintro ⟨i, member, inside, inside'⟩
    exact folded_of_mem_duplicates member inside inside'
  · intro same
    have inside : a ∈ variants ds (folded a) := mem_variants.mpr ⟨ha, rfl⟩
    have inside' : b ∈ variants ds (folded a) := mem_variants.mpr ⟨hb, same.symm⟩
    have both : [a, b] ⊆ variants ds (folded a) := by simp [inside, inside']
    have shared : 2 ≤ (variants ds (folded a)).length :=
      (List.subperm_of_subset (by simp [different]) both).length_le
    exact ⟨_, mem_duplicates_iff.mpr ⟨folded a, shared, rfl⟩, inside, inside'⟩

/-- No name is in two issues. -/
theorem countP_duplicates_le (ds : Definitions) (name : Text) :
    (duplicates ds).countP (·.affected.contains name) ≤ 1 := by
  rw [duplicates_eq, List.countP_map]
  have only : ∀ form ∈ sharedForms ds,
      (variants ds form).contains name = true → (form == folded name) = true := by
    intro form _ inside
    rw [List.contains_iff_mem, mem_variants] at inside
    exact beq_iff_eq.mpr inside.2.symm
  exact (List.countP_mono_left only).trans
    (List.nodup_iff_count_le_one.mp (nodup_sharedForms ds) (folded name))

/-- An issue shows where the groups of its names are, name by name, and counts them. -/
theorem of_duplicateIssue (ds : Definitions) (names : List Text) :
    (duplicateIssue ds names).locations = (names.flatMap (groupsOf ds)).map location ∧
      (duplicateIssue ds names).metrics.uses = some ↑(names.flatMap (groupsOf ds)).length := by
  have places : (names.flatMap fun name => locations (groupsOf ds name)) =
      (names.flatMap (groupsOf ds)).map location := by
    rw [List.map_flatMap]
    rfl
  exact ⟨places, by rw [duplicateIssue, places, List.length_map]⟩

/-! ## Names of different forms -/

/-- The issue is about these two names, in one order or the other. -/
def Issue.isAbout (a b : Text) (i : Issue) : Bool := i.affected == [a, b] || i.affected == [b, a]

theorem similarPair?_eq_some_iff {threshold : Float} {d e : Text × List Group} :
    similarPair? threshold d e = some i ↔
      folded d.1 ≠ folded e.1 ∧ ¬ Naming.similarity d.1 e.1 < threshold ∧
        similarIssue d e (Naming.similarity d.1 e.1) = i := by
  simp only [similarPair?, beq_iff_eq]
  split
  · rename_i same
    simp [same]
  · rename_i different
    split
    · rename_i less
      simp [less]
    · rename_i alike
      simp [different, alike]

/-- Similar names are a pair, and alike as typed. -/
theorem of_mem_similar (member : i ∈ similar o ds) :
    ∃ a b, i.affected = [a, b] ∧ (a, b) ∈ Text.pairs ds.keys ∧
      ¬ Naming.similarity a b < o.similarity := by
  obtain ⟨⟨d, e⟩, inside, found⟩ := List.mem_filterMap.mp member
  obtain ⟨-, alike, rfl⟩ := similarPair?_eq_some_iff.mp found
  refine ⟨d.1, e.1, rfl, ?_, alike⟩
  rw [Entries.keys, Text.pairs_map]
  exact List.mem_map_of_mem inside

theorem isAbout_similarIssue (d e : Text × List Group) (similarity : Float) :
    (similarIssue d e similarity).isAbout a b = Text.joins a b (d.1, e.1) := by
  rw [Bool.eq_iff_iff]
  simp [Issue.isAbout, similarIssue, Text.joins]

/-- Similar names have different forms. -/
theorem folded_ne_of_isAbout (member : i ∈ similar o ds) (about : i.isAbout a b = true) :
    folded a ≠ folded b := by
  obtain ⟨⟨d, e⟩, -, found⟩ := List.mem_filterMap.mp member
  obtain ⟨different, -, rfl⟩ := similarPair?_eq_some_iff.mp found
  rw [isAbout_similarIssue] at about
  obtain ⟨rfl, rfl⟩ | ⟨rfl, rfl⟩ := Text.joins_iff.mp about
  · exact different
  · exact different.symm

/-- The pair of two names has an issue about them if they are alike enough, and no other pair has. -/
theorem any_isAbout_similarPair? (threshold : Float) (different : folded a ≠ folded b)
    (d e : Text × List Group) :
    (similarPair? threshold d e).any (·.isAbout a b) =
      (Text.joins a b (d.1, e.1) && !decide (Naming.similarity a b < threshold)) := by
  rw [Bool.eq_iff_iff, Option.any_eq_true, Bool.and_eq_true, Bool.not_eq_true',
    decide_eq_false_iff_not]
  constructor
  · rintro ⟨i, found, about⟩
    obtain ⟨-, alike, rfl⟩ := similarPair?_eq_some_iff.mp found
    rw [isAbout_similarIssue] at about
    refine ⟨about, ?_⟩
    obtain ⟨rfl, rfl⟩ | ⟨rfl, rfl⟩ := Text.joins_iff.mp about
    · exact alike
    · rwa [Naming.similarity_comm]
  · rintro ⟨joined, alike⟩
    refine ⟨_, similarPair?_eq_some_iff.mpr ⟨?_, ?_, rfl⟩, (isAbout_similarIssue ..).trans joined⟩
    · obtain ⟨rfl, rfl⟩ | ⟨rfl, rfl⟩ := Text.joins_iff.mp joined
      · exact different
      · exact different.symm
    · obtain ⟨rfl, rfl⟩ | ⟨rfl, rfl⟩ := Text.joins_iff.mp joined
      · exact alike
      · rwa [Naming.similarity_comm]

/-- **Two names of different forms are reported once if they are alike enough**, and otherwise
never. -/
theorem countP_similar (distinct : ds.keys.Nodup) (ha : a ∈ ds.keys) (hb : b ∈ ds.keys)
    (different : folded a ≠ folded b) :
    (similar o ds).countP (·.isAbout a b) =
      if Naming.similarity a b < o.similarity then 0 else 1 := by
  have other : a ≠ b := fun same => different (congrArg folded same)
  have once : (Text.pairs ds).countP (fun p => Text.joins a b (p.1.1, p.2.1)) = 1 := by
    have named := Text.countP_joins_pairs distinct ha hb other
    rwa [Entries.keys, Text.pairs_map, List.countP_map] at named
  have any_ (x : Option Issue) : (x.map (·.isAbout a b)).getD false = x.any (·.isAbout a b) := by
    cases x <;> rfl
  rw [similar, List.countP_filterMap]
  simp only [any_, any_isAbout_similarPair? _ different]
  split
  · rename_i less
    simp [less]
  · rename_i alike
    simpa [alike] using once

/-! ## The two checks together -/

/-- **Duplicates and similar names are told exactly, and told apart.**  Two names are in one issue of
duplicates if they have one folded form, and then in no other; the issue has the groups of all its
names, in their order, and how many these are.  Two names of different forms are reported as similar
once if they are alike enough, and nothing else is. -/
theorem names_compared (distinct : ds.keys.Nodup) (o : Options) :
    (∀ a ∈ ds.keys, ∀ b ∈ ds.keys, a ≠ b →
      ((∃ i ∈ duplicates ds, a ∈ i.affected ∧ b ∈ i.affected) ↔ folded a = folded b)) ∧
    (∀ name, (duplicates ds).countP (·.affected.contains name) ≤ 1) ∧
    (∀ i ∈ duplicates ds, i.affected.Sublist ds.keys ∧
      i.locations = (i.affected.flatMap (groupsOf ds)).map location ∧
      i.metrics.uses = some ↑(i.affected.flatMap (groupsOf ds)).length) ∧
    (∀ a ∈ ds.keys, ∀ b ∈ ds.keys, folded a ≠ folded b →
      (similar o ds).countP (·.isAbout a b) =
        if Naming.similarity a b < o.similarity then 0 else 1) ∧
    (∀ i ∈ similar o ds, ∃ a ∈ ds.keys, ∃ b ∈ ds.keys, i.affected = [a, b] ∧
      folded a ≠ folded b ∧ ¬ Naming.similarity a b < o.similarity) ∧
    ∀ i ∈ duplicates ds, ∀ j ∈ similar o ds, ∀ a ∈ i.affected, ∀ b ∈ i.affected,
      j.isAbout a b = false := by
  refine ⟨fun a ha b hb different => exists_duplicate_iff ha hb different,
    countP_duplicates_le ds, ?_, fun a ha b hb different => countP_similar distinct ha hb different,
    ?_, ?_⟩
  · intro i member
    obtain ⟨form, -, rfl⟩ := mem_duplicates_iff.mp member
    exact ⟨List.filter_sublist, of_duplicateIssue ds _⟩
  · intro i member
    obtain ⟨a, b, affected, pair, alike⟩ := of_mem_similar member
    obtain ⟨ha, hb⟩ := Text.mem_of_mem_pairs pair
    have about : i.isAbout a b = true := by simp [Issue.isAbout, affected]
    exact ⟨a, ha, b, hb, affected, folded_ne_of_isAbout member about, alike⟩
  · intro i member j member' a ha b hb
    rw [← Bool.not_eq_true]
    intro about
    exact folded_ne_of_isAbout member' about (folded_of_mem_duplicates member ha hb)

/-- Two spellings of one name that are less alike than either is like a third, and a fourth name that
folds to a word with a final sigma. -/
def loginNames : Definitions :=
  ["Login".toList, "logins", " LOGIN\t", "ΛΟΓΟΣ", "λογοσ"].map fun name =>
    (name, [{ functionality := name, filePath := "a.js", lines := [1] },
            { functionality := name, filePath := "b.js", lines := [7, 8] }])

/-- The two spellings are duplicates and not similar; the name between them is similar to the one
without blanks only. -/
theorem names_compared_login :
    (∃ i ∈ duplicates loginNames, "Login".toList ∈ i.affected ∧ " LOGIN\t".toList ∈ i.affected) ∧
      (similar {} loginNames).countP (·.isAbout "logins" "Login") = 1 ∧
      (similar {} loginNames).countP (·.isAbout " LOGIN\t" "logins") = 0 ∧
      (similar {} loginNames).countP (·.isAbout "ΛΟΓΟΣ" "λογοσ") = 1 := by
  have distinct : loginNames.keys.Nodup := by decide
  obtain ⟨spelled, -, -, alike, -, -⟩ := names_compared distinct {}
  refine ⟨(spelled _ (by decide) _ (by decide) (by decide)).mpr (by decide +kernel), ?_, ?_, ?_⟩
  · exact (alike _ (by decide) _ (by decide) (by decide +kernel)).trans (by decide +kernel)
  · exact (alike _ (by decide) _ (by decide) (by decide +kernel)).trans (by decide +kernel)
  · exact (alike _ (by decide) _ (by decide) (by decide +kernel)).trans (by decide +kernel)

end CodeAtlas.Review
