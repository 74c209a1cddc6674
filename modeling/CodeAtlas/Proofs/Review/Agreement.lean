/-
# Proofs.Review.Agreement -- a review reports nothing that naming does not

A review compares the names of a corpus as they are typed, and takes those for one that differ in
case and in the white space around them only.  Naming compares the words behind the names, too.
Both look at the same names in the same order (`keys_byFunctionality`), so whatever pair of names a
review reports as similar or as duplicates, there is exactly one suggestion between them
(`reported_is_suggested`).
-/
import CodeAtlas.Proofs.Naming.Similar
import CodeAtlas.Proofs.Review.Names
import CodeAtlas.Corpus

namespace CodeAtlas.Review

set_option autoImplicit false

/-! ## What a review looks at -/

/-- The names of a corpus, in order of first use. -/
theorem keys_byFunctionality (c : Corpus) : c.byFunctionality.keys = Naming.names c.groups := by
  have collected : c.byFunctionality = Entries.collected (·.functionality) id
      (c.groups.filter (!·.functionality.isEmpty)) := rfl
  rw [collected, Entries.keys_collected, Naming.names, List.filter_map]
  rfl

/-! ## What is suggested for it -/

/-- **Whatever names a review finds similar or duplicate, one suggestion is between them**, and for
duplicates it is certain. -/
theorem reported_is_suggested (o : Options) (c : Corpus) :
    (∀ i ∈ similar o c.byFunctionality, ∃ a b s, i.affected = [a, b] ∧ a ≠ b ∧
      (Naming.similarNames o.similarity c.groups).filter (·.isBetween a b) = [s]) ∧
    ∀ i ∈ duplicates c.byFunctionality, i.affected.Nodup ∧
      ∀ a ∈ i.affected, ∀ b ∈ i.affected, a ≠ b → ∃ s,
        (Naming.similarNames o.similarity c.groups).filter (·.isBetween a b) = [s] ∧
          s.confidence = 1.0 := by
  have keys := keys_byFunctionality c
  have nodup : c.byFunctionality.keys.Nodup := keys ▸ Naming.nodup_names c.groups
  constructor
  · intro i member
    obtain ⟨a, b, affected, pair, alike⟩ := of_mem_similar member
    obtain ⟨basis, based⟩ := Naming.exists_pairBasis?_of_similarity alike
    obtain ⟨s, found, -⟩ := Naming.forPair?_of_pairBasis? based
    have different := Text.ne_of_mem_pairs nodup pair
    rw [keys] at pair
    exact ⟨a, b, s, affected, different, Naming.one_between pair found⟩
  · intro i member
    obtain ⟨form, affected⟩ := of_mem_duplicates member
    rw [affected]
    refine ⟨nodup.filter _, fun a ha b hb different => ?_⟩
    rw [mem_variants, keys] at ha hb
    exact Naming.certain_between ha.1 hb.1 different o.similarity (ha.2.trans hb.2.symm)

/-- A corpus with two spellings of one name, and with two names that are alike. -/
def spelledCorpus : Corpus :=
  [("js", ["Login".toList, "login ", "databases", "database"].map fun name =>
      { functionality := name, filePath := "a.js", lines := [1] })]

/-- Both pairs are reported, and suggested. -/
theorem reported_is_suggested_spelled :
    let ds := spelledCorpus.byFunctionality
    let suggested := Naming.similarNames ({} : Options).similarity spelledCorpus.groups
    (∃ i ∈ similar {} ds, i.affected = ["databases".toList, "database".toList] ∧
        ∃ s, suggested.filter (·.isBetween "databases" "database") = [s]) ∧
      ∃ i ∈ duplicates ds, i.affected = ["Login".toList, "login ".toList] ∧
        ∃ s, suggested.filter (·.isBetween "Login" "login ") = [s] ∧ s.confidence = 1.0 := by
  intro ds suggested
  have alike : (similar {} ds).map (·.affected) =
      [["databases".toList, "database".toList]] := by decide +kernel
  have spelled : (duplicates ds).map (·.affected) =
      [["Login".toList, "login ".toList]] := by decide +kernel
  obtain ⟨similarOnes, duplicateOnes⟩ := reported_is_suggested {} spelledCorpus
  constructor
  · obtain ⟨i, member, affected⟩ := List.mem_map.mp (alike.symm ▸ List.mem_singleton_self _)
    obtain ⟨a, b, s, names, -, one⟩ := similarOnes i member
    obtain ⟨rfl, rfl⟩ : a = "databases".toList ∧ b = "database".toList := by
      simpa [affected] using names.symm
    exact ⟨i, member, affected, s, one⟩
  · obtain ⟨i, member, affected⟩ := List.mem_map.mp (spelled.symm ▸ List.mem_singleton_self _)
    obtain ⟨-, certain⟩ := duplicateOnes i member
    rw [affected] at certain
    exact ⟨i, member, affected, certain _ (by simp) _ (by simp) (by decide)⟩

end CodeAtlas.Review
