/-
# Proofs.Naming.BestMatch -- when the best match of a name is the name itself

To find the best match of a name, the name is added to the groups, and of the suggestions for all
names the first one is taken that is not to use the name any more, in whatever case it is written.  So
the match may also be a suggestion for an existing name that differs from the new one in case only,
and then it may be to use the new name, which no group has.

This is so for one kind of existing name exactly (`Displaces`): no other existing name differs from
the new one in case only, the new name is the better one of the two, and no existing name that is
alike to the existing one is better than it.  Then the suggestion to use the new name is the only one
that can be taken (`bestMatch?_of_displaces`).  Otherwise an existing name stands in its way, because
a pair with the added name comes behind all other pairs of its first member
(`displaces_of_bestMatch?`).
-/
import CodeAtlas.Proofs.Naming.Preference
import CodeAtlas.Proofs.Text.Case

namespace CodeAtlas.Naming

set_option autoImplicit false

variable {threshold : Float} {groups : List Group} {name a b v : Text} {s : Suggestion}

/-! ## The added name -/

/-- The groups and one more with the given name, and no lines. -/
def added (name : Text) (groups : List Group) : List Group :=
  groups ++ [{ functionality := name, filePath := [], lines := [] }]

theorem mem_names : a ∈ names groups ↔ a ∈ groups.map (·.functionality) ∧ a ≠ [] := by
  rw [names, Text.mem_distinct, List.mem_filter]
  simp

/-- A name is added behind the others if it is new. -/
theorem names_added (name : Text) (groups : List Group) :
    names (added name groups) =
      if name = [] ∨ name ∈ names groups then names groups else names groups ++ [name] := by
  by_cases empty : name = []
  · simp [names, added, empty]
  · have filtered : ((added name groups).map (·.functionality)).filter (!·.isEmpty) =
        (groups.map (·.functionality)).filter (!·.isEmpty) ++ [name] := by
      simp [added, empty]
    rw [names, filtered, Text.distinct_concat, ← names]
    simp [empty]

theorem names_added_of_new (some_ : name ≠ []) (new : name ∉ names groups) :
    names (added name groups) = names groups ++ [name] := by
  rw [names_added, if_neg (by simp [some_, new])]

theorem uses_added (name a : Text) (groups : List Group) :
    uses (added name groups) a = uses groups a + if name = a then 1 else 0 := by
  rw [uses, added, List.countP_append, ← uses, List.countP_singleton]
  simp only [beq_iff_eq]

theorem uses_pos_iff (some_ : a ≠ []) : 0 < uses groups a ↔ a ∈ names groups := by
  rw [uses, List.countP_pos_iff, mem_names, List.mem_map, and_iff_left some_]
  simp only [beq_iff_eq]

/-- What is suggested is an existing name, or the added one if that is new. -/
theorem of_mem_names_added (member : a ∈ names (added name groups)) (unknown : a ∉ names groups) :
    a = name ∧ name ≠ [] ∧ name ∉ names groups := by
  rw [names_added] at member
  split at member
  · exact absurd member unknown
  · rename_i new
    rw [not_or] at new
    exact ⟨List.mem_singleton.mp ((List.mem_append.mp member).resolve_left unknown), new⟩

/-! ## Names that differ in case -/

theorem normalize_eq_of_lower (same : Text.lower a = Text.lower b) : normalize a = normalize b :=
  normalize_eq_of_trim_lower (congrArg Text.trim same)

/-- **What two names have in common does not depend on their case.** -/
theorem pairBasis?_of_lower (threshold : Float) (same : Text.lower a = Text.lower b) (c : Text) :
    pairBasis? threshold a c = pairBasis? threshold b c := by
  have typed : similarity a c = similarity b c := by
    simp only [similarity]
    rw [same]
  rw [pairBasis?, pairBasis?, likeness, likeness, typed, normalize_eq_of_lower same]

/-- Two names that differ in case only mean the same. -/
theorem pairBasis?_eq_sameMeaning (threshold : Float) (same : Text.lower a = Text.lower b) :
    pairBasis? threshold a b = some .sameMeaning :=
  pairBasis?_of_trim_lower threshold (congrArg Text.trim same)

/-! ## The suggestion for a pair -/

/-- **The suggestion for two names that are alike** is to use the better one for the other. -/
theorem forPair?_of_outranks (above : Outranks groups a b) :
    forPair? threshold groups (b, a) =
      (pairBasis? threshold b a).map fun basis => { current := b, suggested := a, basis } := by
  have different : a ≠ b := by
    rintro rfl
    exact not_outranks_self groups a above
  simp only [forPair?]
  rw [(betterName_of_outranks above).2, if_neg (by simpa using different)]

/-- What a suggestion rests on is what its two names have in common. -/
theorem pairBasis?_of_mem (member : s ∈ similarNames threshold groups) :
    pairBasis? threshold s.current s.suggested = some s.basis := by
  obtain ⟨⟨a, b⟩, -, found⟩ := List.mem_filterMap.mp member
  obtain ⟨which, based⟩ := of_forPair?_eq_some found
  rcases which with same | same
  · obtain ⟨rfl, rfl⟩ := Prod.mk.inj same
    exact based
  · obtain ⟨rfl, rfl⟩ := Prod.mk.inj same
    rw [pairBasis?_comm, based]

/-! ## When the added name is suggested -/

theorem of_bestMatch?_eq_some (found : bestMatch? name groups = some s) :
    s ∈ similarNames analysisThreshold (added name groups) ∧
      Text.lower s.current = Text.lower name :=
  ⟨List.mem_of_find?_eq_some found, by simpa using List.find?_some found⟩

/-- **The added name takes the place of an existing one.**  The existing name, and no other, differs
from it in case only, the added name is better, and no existing name that is alike to the existing one
is better than it. -/
structure Displaces (name : Text) (groups : List Group) (v : Text) : Prop where
  known : v ∈ names groups
  variant : ∀ n ∈ names groups, Text.lower n = Text.lower name ↔ n = v
  above : Outranks (added name groups) name v
  best : ∀ n ∈ names groups, (pairBasis? analysisThreshold v n).isSome = true →
    ¬ Outranks (added name groups) n v

/-- The suggestion to use the added name. -/
def displacing (name v : Text) : Suggestion :=
  { current := v, suggested := name, basis := .sameMeaning }

namespace Displaces

theorem lower_eq (displaces : Displaces name groups v) : Text.lower v = Text.lower name :=
  (displaces.variant v displaces.known).mpr rfl

theorem new (displaces : Displaces name groups v) : name ≠ [] ∧ name ∉ names groups := by
  constructor
  · rintro rfl
    exact Text.lower_ne_nil (mem_names.mp displaces.known).2 displaces.lower_eq
  · intro known
    have above := displaces.above
    rw [(displaces.variant name known).mp rfl] at above
    exact not_outranks_self _ v above

/-- A name that is used more than once is not displaced. -/
theorem uses_eq_one (displaces : Displaces name groups v) : uses groups v = 1 := by
  obtain ⟨some_, new⟩ := displaces.new
  have used := (uses_pos_iff (mem_names.mp displaces.known).2).mpr displaces.known
  have unused : uses groups name = 0 := by
    by_contra used'
    exact new ((uses_pos_iff some_).mp (Nat.pos_of_ne_zero used'))
  have different : name ≠ v := fun same => new (same ▸ displaces.known)
  have above := displaces.above
  rw [Outranks, uses_added, uses_added, if_pos rfl, if_neg different, unused] at above
  omega

theorem names_added (displaces : Displaces name groups v) :
    names (added name groups) = names groups ++ [name] :=
  names_added_of_new displaces.new.1 displaces.new.2

/-- It is suggested to use the added name. -/
theorem mem_similarNames (displaces : Displaces name groups v) :
    displacing name v ∈ similarNames analysisThreshold (added name groups) := by
  refine List.mem_filterMap.mpr ⟨(v, name), ?_, ?_⟩
  · rw [displaces.names_added, Text.mem_pairs_concat]
    exact .inr ⟨v, displaces.known, rfl⟩
  · rw [forPair?_of_outranks displaces.above, pairBasis?_eq_sameMeaning _ displaces.lower_eq]
    rfl

/-- **No other suggestion can be the best match.** -/
theorem eq_of_mem (displaces : Displaces name groups v)
    (member : s ∈ similarNames analysisThreshold (added name groups))
    (concerns : Text.lower s.current = Text.lower name) : s = displacing name v := by
  obtain ⟨known, known', above⟩ := outranks_of_mem member
  rw [displaces.names_added, List.mem_append, List.mem_singleton] at known known'
  -- What is suggested is alike to the existing name, since case makes no difference.
  have alike := pairBasis?_of_mem member
  rw [pairBasis?_of_lower _ (concerns.trans displaces.lower_eq.symm)] at alike
  have current : s.current = v ∨ s.current = name :=
    known.imp_left fun inside => (displaces.variant _ inside).mp concerns
  have suggested : s.suggested = name := by
    refine known'.resolve_left fun inside => displaces.best _ inside (by rw [alike]; rfl) ?_
    rcases current with same | same
    · exact same ▸ above
    · exact (same ▸ above).trans displaces.above
  have current' : s.current = v := by
    refine current.resolve_right fun same => ?_
    rw [same, suggested] at above
    exact not_outranks_self _ name above
  rw [suggested, pairBasis?_eq_sameMeaning _ displaces.lower_eq, Option.some.injEq] at alike
  rw [displacing, ← current', ← suggested, alike]

end Displaces

/-- **Where the added name takes the place of an existing one, the best match is the name itself.** -/
theorem bestMatch?_of_displaces (displaces : Displaces name groups v) :
    bestMatch? name groups = some (displacing name v) := by
  have some_ : (bestMatch? name groups).isSome = true :=
    List.find?_isSome.mpr ⟨_, displaces.mem_similarNames, beq_iff_eq.mpr displaces.lower_eq⟩
  obtain ⟨s, found⟩ := Option.isSome_iff_exists.mp some_
  obtain ⟨member, concerns⟩ := of_bestMatch?_eq_some found
  rw [found, displaces.eq_of_mem member concerns]

/-- The suggestion to use the last of the names for another one is made for the two of them. -/
theorem pair_eq_of_suggested {l : List Text} (new : name ∉ l) {pair : Text × Text}
    (inside : pair ∈ Text.pairs (l ++ [name])) (made : forPair? threshold groups pair = some s)
    (suggested : s.suggested = name) : pair = (s.current, name) := by
  obtain ⟨a, b⟩ := pair
  rcases (of_forPair?_eq_some made).1 with same | same
  · rw [← same, suggested]
  · obtain ⟨rfl, rfl⟩ := Prod.mk.inj same
    rw [suggested, Text.mem_pairs_concat] at inside
    rcases inside with before | ⟨a, known, last⟩
    · exact absurd (Text.mem_of_mem_pairs before).1 new
    · exact absurd ((Prod.mk.inj last).1 ▸ known) new

/-- **Where the best match is to use the added name for an existing one, all that is suggested for
the existing name and another one concerns neither.**  A pair with the added name comes behind all
others of its first member, so any other match would have been found before. -/
theorem lower_ne_of_forPair? (found : bestMatch? name groups = some s)
    (suggested : s.suggested = name) (new : name ≠ [] ∧ name ∉ names groups)
    (current : s.current ∈ names groups) {n : Text} (known : n ∈ names groups)
    (other : n ≠ s.current) {t : Suggestion}
    (made : forPair? analysisThreshold (added name groups) (s.current, n) = some t) :
    Text.lower t.current ≠ Text.lower name := by
  have extended := names_added_of_new new.1 new.2
  obtain ⟨early, late, whole, absent, others⟩ :=
    Text.exists_pairs_concat (extended ▸ nodup_names (added name groups)) current
  have none_ : (early.filterMap (forPair? analysisThreshold (added name groups))).find?
      (fun t => Text.lower t.current == Text.lower name) = none := by
    by_contra some_
    obtain ⟨t, first⟩ := Option.ne_none_iff_exists'.mp some_
    rw [bestMatch?, similarNames, ← added, extended, whole, List.filterMap_append,
      List.find?_append, first, Option.some_or, Option.some.injEq] at found
    subst found
    obtain ⟨pair, inside, made⟩ := List.mem_filterMap.mp (List.mem_of_find?_eq_some first)
    have same := pair_eq_of_suggested new.2 (whole ▸ List.mem_append_left _ inside) made suggested
    exact absent (same ▸ inside)
  have listed : t ∈ early.filterMap (forPair? analysisThreshold (added name groups)) := by
    rcases others n known other with pair | pair
    · exact List.mem_filterMap.mpr ⟨_, pair, made⟩
    · exact List.mem_filterMap.mpr ⟨_, pair, forPair?_swap _ _ n _ ▸ made⟩
  simpa using List.find?_eq_none.mp none_ t listed

/-- **The best match is the name itself only where the name takes the place of an existing one.** -/
theorem displaces_of_bestMatch? (found : bestMatch? name groups = some s)
    (unknown : s.suggested ∉ names groups) : Displaces name groups s.current := by
  obtain ⟨member, concerns⟩ := of_bestMatch?_eq_some found
  obtain ⟨known, known', above⟩ := outranks_of_mem member
  obtain ⟨suggested, new⟩ := of_mem_names_added known' unknown
  rw [suggested] at above
  have current : s.current ∈ names groups := by
    rw [names_added_of_new new.1 new.2, List.mem_append, List.mem_singleton] at known
    refine known.resolve_right fun same => ?_
    rw [same] at above
    exact not_outranks_self _ name above
  have no_other {n : Text} (inside : n ∈ names groups) (other : n ≠ s.current) {t : Suggestion} :=
    lower_ne_of_forPair? found suggested new current inside other (t := t)
  refine ⟨current, fun n inside => ⟨fun variant => ?_, fun same => same ▸ concerns⟩, above,
    fun n inside alike better => ?_⟩
  · by_contra other
    have based := pairBasis?_eq_sameMeaning analysisThreshold (concerns.trans variant.symm)
    obtain ⟨t, made, -⟩ : ∃ t, forPair? analysisThreshold (added name groups) (s.current, n) =
        some t ∧ t.basis = .sameMeaning := forPair?_of_pairBasis? based
    refine no_other inside other made ?_
    rcases (of_forPair?_eq_some made).1 with same | same
    · rw [(Prod.mk.inj same).1, concerns]
    · rw [(Prod.mk.inj same).1, variant]
  · have other : n ≠ s.current := by
      rintro rfl
      exact not_outranks_self _ _ better
    obtain ⟨basis, based⟩ := Option.isSome_iff_exists.mp alike
    have made : forPair? analysisThreshold (added name groups) (s.current, n) =
        some { current := s.current, suggested := n, basis } := by
      rw [forPair?_of_outranks better, based]
      rfl
    exact no_other inside other made concerns

/-- **When a best match is an existing name.**  It is one unless the new name takes the place of an
existing name that differs from it in case only and is used once; then the match is to use the new
name, which no group has. -/
theorem bestMatch_known_iff (name : Text) (groups : List Group) :
    ((∀ s, bestMatch? name groups = some s → s.suggested ∈ groups.map (·.functionality)) ↔
      ∀ v, ¬ Displaces name groups v) ∧
    ∀ v, Displaces name groups v →
      uses groups v = 1 ∧ bestMatch? name groups = some (displacing name v) := by
  refine ⟨⟨fun existing v displaces => ?_, fun none_ s found => ?_⟩, fun v displaces =>
    ⟨displaces.uses_eq_one, bestMatch?_of_displaces displaces⟩⟩
  · have known := existing _ (bestMatch?_of_displaces displaces)
    exact displaces.new.2 (mem_names.mpr ⟨known, displaces.new.1⟩)
  · by_contra unknown
    exact none_ _ (displaces_of_bestMatch? found fun known => unknown (mem_names.mp known).1)

/-- An existing name that is used twice. -/
def authName : List Group :=
  ["auth".toList, "auth"].map fun name =>
    { functionality := name, filePath := "a.js", lines := [1] }

/-- The best match of the word spelled out is the existing name, in whose place it is not put. -/
theorem bestMatch_known_auth :
    (bestMatch? "Authentication" authName).map (fun s => (s.current, s.suggested)) =
        some ("Authentication".toList, "auth".toList) ∧
      ∀ v, ¬ Displaces "Authentication" authName v := by
  have found : (bestMatch? "Authentication" authName).map
      (fun s => (s.current, s.suggested)) =
        some ("Authentication".toList, "auth".toList) := by
    decide +kernel
  refine ⟨found, (bestMatch_known_iff _ _).1.mp fun s best => ?_⟩
  rw [best, Option.map_some, Option.some.injEq] at found
  rw [(Prod.mk.inj found).2]
  decide

/-- An existing name in lower case. -/
def loginName : List Group := [{ functionality := "login", filePath := "a.js", lines := [1] }]

/-- **The best match of a capitalized name** that no group has is the name itself. -/
theorem not_bestMatch_known_login :
    bestMatch? "Login" loginName = some (displacing "Login" "login") ∧
      ¬ ∀ (name : Text) (groups : List Group) (s : Suggestion),
        bestMatch? name groups = some s → s.suggested ∈ groups.map (·.functionality) := by
  have displaces : Displaces "Login" loginName "login" :=
    ⟨by decide, by decide +kernel, by decide, by decide +kernel⟩
  have found := bestMatch?_of_displaces displaces
  exact ⟨found, fun existing => absurd (existing _ _ _ found) (by decide)⟩

end CodeAtlas.Naming
