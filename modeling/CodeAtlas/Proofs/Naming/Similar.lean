/-
# Proofs.Naming.Similar -- what is suggested for two names

A suggestion is *between* two names if it says to use the one for the other.  Every two names make
one pair, so there is exactly one suggestion between them if their pair has one (`one_between`), and
none otherwise.

Names that are alike as typed are alike (`exists_pairBasis?_of_similarity`): normalizing can only
bring them closer.  Names that differ in case and in the white space around them only have the same
meaning (`normalize_eq_of_trim_lower`).
-/
import CodeAtlas.Naming.Suggestion
import CodeAtlas.Proofs.Number.Order
import CodeAtlas.Proofs.Text.Order
import CodeAtlas.Proofs.Text.Pieces

namespace CodeAtlas.Naming

set_option autoImplicit false

variable {threshold : Float} {groups : List Group} {a b : Text} {s : Suggestion}

/-! ## Pairs of names -/

theorem nodup_names (groups : List Group) : (names groups).Nodup := Text.nodup_distinct _

/-- The suggestion is to use one of the two names for the other. -/
def Suggestion.isBetween (a b : Text) (s : Suggestion) : Bool :=
  Text.joins a b (s.current, s.suggested)

theorem Suggestion.isBetween_comm : s.isBetween a b = s.isBetween b a := by
  rw [isBetween, isBetween, Text.joins_comm]

theorem betterName_eq_or (groups : List Group) (a b : Text) :
    betterName groups a b = a ∨ betterName groups a b = b := by
  rw [betterName]
  split
  · split
    · exact .inl rfl
    · exact .inr rfl
  · split
    · split
      · exact .inl rfl
      · exact .inr rfl
    · split
      · exact .inl rfl
      · exact .inr rfl

/-- The suggestion for a pair is to use one of its names for the other, for what they have in
common. -/
theorem of_forPair?_eq_some (found : forPair? threshold groups (a, b) = some s) :
    ((s.current, s.suggested) = (a, b) ∨ (s.current, s.suggested) = (b, a)) ∧
      pairBasis? threshold a b = some s.basis := by
  obtain ⟨basis, based, rfl⟩ := Option.map_eq_some_iff.mp found
  refine ⟨?_, based⟩
  dsimp only
  split
  · rename_i first
    exact .inr (by rw [beq_iff_eq.mp first])
  · rename_i other
    have second := (betterName_eq_or groups a b).resolve_left (by simpa using other)
    exact .inl (by rw [second])

theorem isBetween_of_forPair? {x y : Text} (found : forPair? threshold groups (x, y) = some s) :
    s.isBetween a b = Text.joins a b (x, y) := by
  rw [Suggestion.isBetween]
  rcases (of_forPair?_eq_some found).1 with same | same
  · rw [same]
  · rw [same, Text.joins_swap]

/-- The suggestions between two names are those for their pairs. -/
theorem filter_isBetween_similarNames (threshold : Float) (groups : List Group) (a b : Text) :
    (similarNames threshold groups).filter (·.isBetween a b) =
      ((Text.pairs (names groups)).filter (Text.joins a b)).filterMap
        (forPair? threshold groups) := by
  rw [similarNames, List.filter_filterMap, List.filterMap_filter]
  congr 1
  funext pair
  cases found : forPair? threshold groups pair with
  | none => simp
  | some s =>
      rw [Option.filter_some, isBetween_of_forPair? found]

/-- **There is exactly one suggestion between the names of a pair that has one.** -/
theorem one_between (member : (a, b) ∈ Text.pairs (names groups))
    (found : forPair? threshold groups (a, b) = some s) :
    (similarNames threshold groups).filter (·.isBetween a b) = [s] := by
  rw [filter_isBetween_similarNames, Text.filter_joins_pairs (nodup_names groups) member]
  simp [found]

/-! ## What names have in common -/

theorem forPair?_of_pairBasis? {basis : Basis} (based : pairBasis? threshold a b = some basis) :
    ∃ s, forPair? threshold groups (a, b) = some s ∧ s.basis = basis := by
  rw [forPair?, based]
  exact ⟨_, rfl, rfl⟩

/-- **Names that are alike as typed are alike.** -/
theorem exists_pairBasis?_of_similarity (alike : ¬ similarity a b < threshold) :
    ∃ basis, pairBasis? threshold a b = some basis := by
  have closer : ¬ likeness a b < threshold := by
    rw [likeness]
    split
    · rename_i less
      exact fun below => alike (Number.lt_trans less below)
    · exact alike
  rw [pairBasis?, if_neg closer]
  split
  · exact ⟨_, rfl⟩
  · exact ⟨_, rfl⟩

/-- White space around a name, and its case, do not count for its words. -/
theorem plain_eq_of_trim_lower (same : Text.trim (Text.lower a) = Text.trim (Text.lower b)) :
    plain a = plain b := by
  rw [plain, plain, ← Text.words_trim (Text.lower a), same, Text.words_trim]

theorem normalize_eq_of_trim_lower (same : Text.trim (Text.lower a) = Text.trim (Text.lower b)) :
    normalize a = normalize b := by
  rw [normalize, normalize, canonicalWords, canonicalWords, plain_eq_of_trim_lower same]

/-- **Spellings of one name have the same meaning.** -/
theorem pairBasis?_of_trim_lower (threshold : Float)
    (same : Text.trim (Text.lower a) = Text.trim (Text.lower b)) :
    pairBasis? threshold a b = some .sameMeaning := by
  rw [pairBasis?, if_pos (beq_iff_eq.mpr (normalize_eq_of_trim_lower same))]

/-- **Between two spellings of one name there is exactly one suggestion, and it is certain.** -/
theorem certain_between (ha : a ∈ names groups) (hb : b ∈ names groups) (different : a ≠ b)
    (threshold : Float) (same : Text.trim (Text.lower a) = Text.trim (Text.lower b)) :
    ∃ s, (similarNames threshold groups).filter (·.isBetween a b) = [s] ∧ s.confidence = 1.0 := by
  rcases Text.mem_pairs_or ha hb different with pair | pair
  · obtain ⟨s, found, basis⟩ := forPair?_of_pairBasis? (pairBasis?_of_trim_lower threshold same)
    exact ⟨s, one_between pair found, by rw [Suggestion.confidence, basis]; rfl⟩
  · have swap : Suggestion.isBetween a b = Suggestion.isBetween b a :=
      funext fun _ => Suggestion.isBetween_comm
    obtain ⟨s, found, basis⟩ :=
      forPair?_of_pairBasis? (pairBasis?_of_trim_lower threshold same.symm)
    exact ⟨s, swap ▸ one_between pair found, by rw [Suggestion.confidence, basis]; rfl⟩

end CodeAtlas.Naming
