/-
# Proofs.Review.Conventions -- names that follow several conventions at once

The conventions overlap, and a name is counted under each that it follows.  What the check for
inconsistent naming weighs are the conventions that three names or more follow
(`mem_significant_iff`), and the issue lists the followers of each of them in turn.

So the check is right about names that all follow one convention, and lists no name twice, as long as
no name follows two conventions that are weighed (`judgesFairly_iff`).  Which names follow two
conventions at all is a matter of the conventions alone (`overlap_iff`): words of letters in lower
case and digits, which are written the same way with and without capitals, underscores and hyphens,
and names with white space that have a special sign, too, or end in a line break that does not count
for their shape.

The first kind is the common one.  Three such words are three names that follow one convention, and
the issue says of them that there are three conventions (`inconsistentNaming_of_words`).
-/
import Mathlib.Data.List.Pairwise
import CodeAtlas.Proofs.Review.Rearranged

namespace CodeAtlas.Review

set_option autoImplicit false

variable {ds : Definitions} {i : Issue} {names : List Text} {name : Text}

/-! ## The conventions that are weighed -/

/-- A convention that three of the names or more follow. -/
def IsWeighed (names : List Text) (c : Text × (Text → Bool)) : Prop :=
  c ∈ conventions ∧ 3 ≤ (names.filter c.2).length

theorem filter_conventions {c : Text × (Text → Bool)} (known : c ∈ conventions) :
    conventions.filter (·.1 == c.1) = [c] := by
  simp only [conventions, List.mem_cons, List.not_mem_nil, or_false] at known
  rcases known with rfl | rfl | rfl | rfl | rfl | rfl <;> rfl

/-- Under a convention are the names that follow it. -/
theorem filter_following {c : Text × (Text → Bool)} (known : c ∈ conventions) (names : List Text) :
    ((following names).filter (·.1 == c.1)).map Prod.snd = names.filter c.2 := by
  induction names with
  | nil => rfl
  | cons name names ih =>
      have here : (((conventions.filter fun c => c.2 name).map (·.1, name)).filter
          (·.1 == c.1)).map Prod.snd = if c.2 name then [name] else [] := by
        rw [List.filter_map, List.map_map, List.filter_filter]
        simp only [Function.comp_def]
        rw [← List.filter_filter, List.filter_comm, filter_conventions known]
        cases follows : c.2 name <;> simp [follows]
      rw [following] at ih ⊢
      rw [List.flatMap_cons, List.filter_append, List.map_append, ih, here, List.filter_cons]
      cases c.2 name <;> rfl

theorem nodup_keys_significant (names : List Text) : (Entries.keys (significant names)).Nodup := by
  rw [significant, followers_eq]
  exact (Entries.nodup_keys_collected Prod.fst Prod.snd (following names)).sublist
    (List.filter_sublist.map _)

/-- **What is weighed**: every convention that three names or more follow, with these names. -/
theorem mem_significant_iff {e : Text × List Text} : e ∈ significant names ↔
    ∃ c, IsWeighed names c ∧ (c.1, names.filter c.2) = e := by
  have nodup := Entries.nodup_keys_collected Prod.fst Prod.snd (following names)
  have under {c : Text × (Text → Bool)} (known : c ∈ conventions) :
      Entries.get? (followers names) c.1 =
        if names.filter c.2 = [] then none else some (names.filter c.2) := by
    rw [followers_eq, Entries.get?_collected, filter_following known]
  obtain ⟨k, listed⟩ := e
  rw [significant, List.mem_filter, decide_eq_true_iff, followers_eq, ← Entries.get?_eq_some_iff nodup,
    ← followers_eq]
  constructor
  · rintro ⟨found, many⟩
    have used : k ∈ Entries.keys (followers names) := by
      by_contra unused
      rw [Entries.get?_eq_none_iff.mpr unused] at found
      cases found
    rw [followers_eq, Entries.keys_collected, Text.mem_distinct, List.mem_map] at used
    obtain ⟨⟨_, name⟩, member, rfl⟩ := used
    obtain ⟨name', -, pair⟩ := List.mem_flatMap.mp member
    obtain ⟨c, kept, same⟩ := List.mem_map.mp pair
    obtain ⟨rfl, rfl⟩ := Prod.mk.inj same
    have known := (List.mem_filter.mp kept).1
    rw [under known] at found
    split at found
    · cases found
    · cases found
      exact ⟨c, ⟨known, many⟩, rfl⟩
  · rintro ⟨c, ⟨known, many⟩, same⟩
    obtain ⟨rfl, rfl⟩ := Prod.mk.inj same
    have some_ : names.filter c.2 ≠ [] := by
      intro empty
      simp [empty] at many
    exact ⟨by rw [under known, if_neg some_], many⟩

/-! ## Names that are counted twice -/

/-- No name follows two conventions that are weighed. -/
def Separate (names : List Text) : Prop :=
  ∀ c c', IsWeighed names c → IsWeighed names c' → c.1 ≠ c'.1 →
    ∀ name ∈ names, ¬(c.2 name = true ∧ c'.2 name = true)

theorem affected_of_mem (found : i ∈ inconsistentNaming ds) :
    i.affected = (significant ds.keys).flatMap Prod.snd := by
  simp only [inconsistentNaming] at found
  split at found
  · cases found
  · rw [List.mem_singleton.mp found]

theorem inconsistentNaming_eq_nil_iff :
    inconsistentNaming ds = [] ↔ (significant ds.keys).length < 2 := by
  simp only [inconsistentNaming]
  split
  · rename_i few
    exact iff_of_true rfl few
  · rename_i many
    exact iff_of_false (List.cons_ne_nil _ _) many

/-- Two conventions that are weighed make an issue. -/
theorem two_le_length_significant {c c' : Text × (Text → Bool)} (weighed : IsWeighed names c)
    (weighed' : IsWeighed names c') (different : c.1 ≠ c'.1) : 2 ≤ (significant names).length := by
  have both : [(c.1, names.filter c.2), (c'.1, names.filter c'.2)] ⊆ significant names := by
    simp only [List.cons_subset, List.nil_subset, and_true]
    exact ⟨mem_significant_iff.mpr ⟨c, weighed, rfl⟩, mem_significant_iff.mpr ⟨c', weighed', rfl⟩⟩
  exact (List.subperm_of_subset (by simp [different]) both).length_le

/-- **No name is listed twice** exactly if no name follows two conventions that are weighed. -/
theorem nodup_flatMap_significant_iff (distinct : names.Nodup) :
    ((significant names).flatMap Prod.snd).Nodup ↔ Separate names := by
  rw [List.nodup_flatMap]
  constructor
  · rintro ⟨-, apart⟩ c c' weighed weighed' different name member ⟨follows, follows'⟩
    have : Std.Symm (Function.onFun List.Disjoint (Prod.snd : Text × List Text → List Text)) :=
      ⟨fun _ _ => List.disjoint_symm⟩
    have disjoint := apart.forall (mem_significant_iff.mpr ⟨c, weighed, rfl⟩)
      (mem_significant_iff.mpr ⟨c', weighed', rfl⟩) (fun same => different (Prod.mk.inj same).1)
    exact disjoint (List.mem_filter.mpr ⟨member, follows⟩) (List.mem_filter.mpr ⟨member, follows'⟩)
  · intro separate
    constructor
    · intro e member
      obtain ⟨c, -, rfl⟩ := mem_significant_iff.mp member
      exact distinct.filter _
    · refine List.Pairwise.imp_of_mem ?_ (List.pairwise_map.mp (nodup_keys_significant names))
      intro e e' member member' different name listed listed'
      obtain ⟨c, weighed, rfl⟩ := mem_significant_iff.mp member
      obtain ⟨c', weighed', rfl⟩ := mem_significant_iff.mp member'
      obtain ⟨known, follows⟩ := List.mem_filter.mp listed
      exact separate c c' weighed weighed' different name known
        ⟨follows, (List.mem_filter.mp listed').2⟩

/-! ## Names that follow one convention -/

/-- There is a convention that all names follow. -/
def Consistent (names : List Text) : Prop := ∃ c ∈ conventions, ∀ name ∈ names, c.2 name = true

/-- **What the check should do**: find nothing about consistent names, and list no name twice. -/
structure JudgesFairly (ds : Definitions) : Prop where
  quiet : Consistent ds.keys → inconsistentNaming ds = []
  nodup : ∀ i ∈ inconsistentNaming ds, i.affected.Nodup

/-- If no name follows two conventions that are weighed, only the one that all names follow is. -/
theorem quiet_of_separate (separate : Separate ds.keys) (consistent : Consistent ds.keys) :
    inconsistentNaming ds = [] := by
  rw [inconsistentNaming_eq_nil_iff]
  by_contra many
  obtain ⟨c, known, follows⟩ := consistent
  have all : ds.keys.filter c.2 = ds.keys := List.filter_eq_self.mpr follows
  -- There is a second convention, since no convention is weighed twice.
  obtain ⟨e, member, other⟩ : ∃ e ∈ significant ds.keys, e.1 ≠ c.1 := by
    have length : (Entries.keys (significant ds.keys)).length = (significant ds.keys).length :=
      List.length_map _
    have two : Entries.keys (significant ds.keys) ≠ [c.1] := by
      intro single
      rw [single, List.length_singleton] at length
      omega
    rcases ((nodup_keys_significant ds.keys).ne_singleton_iff c.1).mp two with none_ | ⟨k, key, other⟩
    · rw [none_, List.length_nil] at length
      omega
    · obtain ⟨e, member, rfl⟩ := List.mem_map.mp key
      exact ⟨e, member, other⟩
  obtain ⟨c', weighed', rfl⟩ := mem_significant_iff.mp member
  have shorter : (ds.keys.filter c'.2).length ≤ ds.keys.length := List.length_filter_le _ _
  have weighed : IsWeighed ds.keys c := ⟨known, by rw [all]; exact weighed'.2.trans shorter⟩
  obtain ⟨name, inside⟩ := List.exists_mem_of_length_pos (Nat.zero_lt_of_lt weighed'.2)
  obtain ⟨given, follows'⟩ := List.mem_filter.mp inside
  exact separate c' c weighed' weighed other name given ⟨follows', follows name given⟩

/-! ## Names that follow two conventions -/

/-- A sign that is no part of a word in any convention. -/
def isSign (c : Char) : Bool :=
  !(c.isAlphanum || Text.isBlankChar c || c == '-' || c == '_')

/-- Letters in lower case and digits, a letter first. -/
def isWord (name : Text) : Bool := hasShape Char.isLower (fun c => c.isLower || c.isDigit) name

/-- Does the name follow one of the conventions about the shape of the whole name? -/
def isShaped (name : Text) : Bool := (conventions.take 4).any fun c => c.2 name

/-- Names that follow two conventions. -/
def isAmbiguous (name : Text) : Bool :=
  isWord name || name.any Text.isBlankChar && (name.any isSign || isShaped name)

section Shapes

variable {first first' first'' further further' further'' : Char → Bool}

theorem hasShape_iff : hasShape first further name = true ↔
    ∃ c rest, withoutFinalBreak name = c :: rest ∧ first c = true ∧ ∀ d ∈ rest, further d = true := by
  rw [hasShape]
  cases withoutFinalBreak name with
  | nil => simp
  | cons c rest =>
      simp only [Bool.and_eq_true, List.all_eq_true]
      constructor
      · exact fun both => ⟨c, rest, rfl, both⟩
      · rintro ⟨_, _, same, both⟩
        cases same
        exact both

theorem hasShape_mono (firsts : ∀ c, first c = true → first' c = true)
    (furthers : ∀ c, further c = true → further' c = true)
    (shaped : hasShape first further name = true) : hasShape first' further' name = true := by
  obtain ⟨c, rest, whole, begins, goesOn⟩ := hasShape_iff.mp shaped
  exact hasShape_iff.mpr ⟨c, rest, whole, firsts c begins, fun d member =>
    furthers d (goesOn d member)⟩

/-- A name has two shapes if its characters are of both kinds. -/
theorem hasShape_and (firsts : ∀ c, (first c && first' c) = first'' c)
    (furthers : ∀ c, (further c && further' c) = further'' c) (name : Text) :
    (hasShape first further name && hasShape first' further' name) =
      hasShape first'' further'' name := by
  rw [hasShape, hasShape, hasShape]
  cases withoutFinalBreak name with
  | nil => rfl
  | cons c rest =>
      rw [Bool.eq_iff_iff]
      simp only [← firsts, ← furthers, Bool.and_eq_true, List.all_eq_true, forall_and]
      tauto

theorem hasShape_none (further : Char → Bool) (name : Text) :
    hasShape (fun _ => false) further name = false := by
  rw [hasShape]
  cases withoutFinalBreak name <;> rfl

/-- A name with a shape holds its kinds of characters, and a line break at most. -/
theorem of_hasShape (shaped : hasShape first further name = true) {c : Char} (member : c ∈ name) :
    first c = true ∨ further c = true ∨ c = '\n' := by
  obtain ⟨d, rest, whole, begins, goesOn⟩ := hasShape_iff.mp shaped
  have inside : c ∈ withoutFinalBreak name ∨ c = '\n' := by
    rw [withoutFinalBreak]
    split
    · rename_i broken
      obtain ⟨front, rfl⟩ := List.getLast?_eq_some_iff.mp (beq_iff_eq.mp broken)
      simpa using member
    · exact .inl member
  rcases inside with within | last
  · rw [whole, List.mem_cons] at within
    rcases within with rfl | later
    · exact .inl begins
    · exact .inr (.inl (goesOn c later))
  · exact .inr (.inr last)

end Shapes

/-! ## Which conventions overlap -/

theorem isLower_and_isUpper (c : Char) : (c.isLower && c.isUpper) = false := by
  have lower : c.isLower = (decide (97 ≤ c.toNat) && decide (c.toNat ≤ 122)) := rfl
  have upper : c.isUpper = decide (65 ≤ c.toNat ∧ c.toNat ≤ 90) := rfl
  rw [lower, upper, Bool.eq_false_iff]
  simp only [ne_eq, Bool.and_eq_true, decide_eq_true_eq]
  omega

theorem isAlphanum_eq (c : Char) : c.isAlphanum = (c.isUpper || c.isLower || c.isDigit) := rfl

/-- Of the letters and digits, only those in lower case can stand with a sign. -/
theorem isAlphanum_and (sign : Char) (outside : sign.isAlphanum = false) (c : Char) :
    (c.isAlphanum && (c.isLower || c.isDigit || c == sign)) = (c.isLower || c.isDigit) := by
  by_cases same : c = sign
  · rw [same, outside]
    simp only [isAlphanum_eq, Bool.or_eq_false_iff] at outside
    simp [outside]
  · rw [beq_eq_false_iff_ne.mpr same, isAlphanum_eq]
    cases c.isUpper <;> cases c.isLower <;> cases c.isDigit <;> rfl

theorem isSign_eq_false {c : Char} (plain : c.isAlphanum = true ∨ c = '-' ∨ c = '_' ∨ c = '\n') :
    isSign c = false := by
  rcases plain with letter | rfl | rfl | rfl
  · rw [isSign, letter]
    rfl
  all_goals decide

/-- What may stand with either sign may stand with none. -/
theorem or_sign_and (c : Char) :
    ((c.isLower || c.isDigit || c == '_') && (c.isLower || c.isDigit || c == '-')) =
      (c.isLower || c.isDigit) := by
  by_cases same : c = '_'
  · rw [same]
    rfl
  · rw [beq_eq_false_iff_ne.mpr same, Bool.or_false, Bool.and_or_distrib_left, Bool.and_self]
    cases (c.isLower || c.isDigit) <;> rfl

/-- No name with a shape has a sign in it. -/
theorem any_isSign_of_isShaped (shaped : isShaped name = true) : name.any isSign = false := by
  rw [List.any_eq_false]
  intro c member
  have plain : c.isAlphanum = true ∨ c = '-' ∨ c = '_' ∨ c = '\n' := by
    simp only [isShaped, conventions, List.take, List.any_cons, List.any_nil, Bool.or_eq_true,
      Bool.false_eq_true, or_false] at shaped
    rcases shaped with shape | shape | shape | shape
    all_goals
      have := of_hasShape shape member
      grind [isAlphanum_eq]
  rw [isSign_eq_false plain]
  exact Bool.false_ne_true

/-- What the conventions have to do with each other, as a matter of truth values: the four shapes,
white space, signs, and words. -/
theorem two_follow_iff : ∀ camel pascal snake kebab spaces signs word : Bool,
    (camel && pascal) = false → (pascal && snake) = false → (pascal && kebab) = false →
    (camel && snake) = word → (camel && kebab) = word → (snake && kebab) = word →
    ([camel, pascal, snake, kebab].any id = true → signs = false) →
    let follows := (conventions.map Prod.fst).zip [camel, pascal, snake, kebab, spaces, signs]
    ((∃ f ∈ follows, ∃ f' ∈ follows, f.1 ≠ f'.1 ∧ f.2 = true ∧ f'.2 = true) ↔
      (word || spaces && (signs || [camel, pascal, snake, kebab].any id)) = true) := by
  decide +kernel

/-- **Which names follow two conventions.** -/
theorem overlap_iff (name : Text) :
    (∃ c ∈ conventions, ∃ c' ∈ conventions, c.1 ≠ c'.1 ∧ c.2 name = true ∧ c'.2 name = true) ↔
      isAmbiguous name = true := by
  have upperLower (c : Char) : (c.isUpper && c.isLower) = false :=
    (Bool.and_comm _ _).trans (isLower_and_isUpper c)
  have lowerUpper := (hasShape_and isLower_and_isUpper (fun _ => rfl) name).trans
    (hasShape_none (fun c => c.isAlphanum && c.isAlphanum) name)
  have pascalSnake := (hasShape_and upperLower (fun _ => rfl) name).trans
    (hasShape_none (fun c => c.isAlphanum && (c.isLower || c.isDigit || c == '_')) name)
  have pascalKebab := (hasShape_and upperLower (fun _ => rfl) name).trans
    (hasShape_none (fun c => c.isAlphanum && (c.isLower || c.isDigit || c == '-')) name)
  have camelSnake := hasShape_and (fun c => Bool.and_self c.isLower)
    (isAlphanum_and '_' (by decide)) name
  have camelKebab := hasShape_and (fun c => Bool.and_self c.isLower)
    (isAlphanum_and '-' (by decide)) name
  have snakeKebab := hasShape_and (fun c => Bool.and_self c.isLower) or_sign_and name
  have truths := two_follow_iff _ _ _ _ (name.any Text.isBlankChar) (name.any isSign) _ lowerUpper
    pascalSnake pascalKebab camelSnake camelKebab snakeKebab any_isSign_of_isShaped
  change ((∃ f ∈ conventions.map fun c => (c.1, c.2 name), ∃ f' ∈ conventions.map fun c =>
    (c.1, c.2 name), f.1 ≠ f'.1 ∧ f.2 = true ∧ f'.2 = true) ↔ isAmbiguous name = true) at truths
  simpa only [List.mem_map, exists_exists_and_eq_and] using truths

/-! ## When the check is right -/

/-- If no name follows two conventions, none follows two that are weighed. -/
theorem separate_of_unambiguous (plain : ∀ name ∈ names, isAmbiguous name = false) :
    Separate names := by
  intro c c' weighed weighed' different name member both
  have overlaps := (overlap_iff name).mp ⟨c, weighed.1, c', weighed'.1, different, both⟩
  rw [plain name member] at overlaps
  cases overlaps

theorem judgesFairly_of_separate (distinct : ds.keys.Nodup) (separate : Separate ds.keys) :
    JudgesFairly ds where
  quiet := quiet_of_separate separate
  nodup := fun i found => by
    rw [affected_of_mem found]
    exact (nodup_flatMap_significant_iff distinct).mpr separate

theorem separate_of_judgesFairly (distinct : ds.keys.Nodup) (fair : JudgesFairly ds) :
    Separate ds.keys := by
  by_cases quiet : inconsistentNaming ds = []
  · intro c c' weighed weighed' different
    have := two_le_length_significant weighed weighed' different
    rw [inconsistentNaming_eq_nil_iff] at quiet
    omega
  · obtain ⟨i, found⟩ := List.exists_mem_of_ne_nil _ quiet
    have listed := fair.nodup i found
    rw [affected_of_mem found] at listed
    exact (nodup_flatMap_significant_iff distinct).mp listed

/-- **Three words are enough for an issue.**  They all follow one convention, but there are three
conventions that they all follow. -/
theorem inconsistentNaming_of_words (words : ∀ name ∈ ds.keys, isWord name = true)
    (many : 3 ≤ ds.keys.length) : Consistent ds.keys ∧ inconsistentNaming ds ≠ [] := by
  have camel {name : Text} : isWord name = true → hasShape Char.isLower Char.isAlphanum name = true :=
    hasShape_mono (fun _ => id) fun c => by
      simp only [isAlphanum_eq, Bool.or_eq_true]
      tauto
  have snake {name : Text} : isWord name = true →
      hasShape Char.isLower (fun c => c.isLower || c.isDigit || c == '_') name = true :=
    hasShape_mono (fun _ => id) fun c plain => by rw [plain, Bool.true_or]
  have weighed {c : Text × (Text → Bool)} (known : c ∈ conventions)
      (follow : ∀ name, isWord name = true → c.2 name = true) : IsWeighed ds.keys c := by
    refine ⟨known, ?_⟩
    rwa [List.filter_eq_self.mpr fun name member => follow name (words name member)]
  constructor
  · exact ⟨("camelCase", _), .head _, fun name member => camel (words name member)⟩
  · have camelCase := weighed (.head _) fun _ => camel
    have snakeCase := weighed (.tail _ (.tail _ (.head _))) fun _ => snake
    rw [ne_eq, inconsistentNaming_eq_nil_iff, not_lt]
    exact two_le_length_significant camelCase snakeCase (by decide)

/-- **When the check for inconsistent naming is right**: exactly if no name follows two conventions
that three names or more follow each, in particular if no name follows two conventions at all.  About
three words or more, letters in lower case and digits only, there is always an issue, although they
follow one convention. -/
theorem judgesFairly_iff (distinct : ds.keys.Nodup) :
    (JudgesFairly ds ↔ Separate ds.keys) ∧
      ((∀ name ∈ ds.keys, isAmbiguous name = false) → JudgesFairly ds) ∧
      ((∀ name ∈ ds.keys, isWord name = true) → 3 ≤ ds.keys.length →
        Consistent ds.keys ∧ inconsistentNaming ds ≠ []) := by
  refine ⟨⟨separate_of_judgesFairly distinct, judgesFairly_of_separate distinct⟩, fun plain => ?_,
    inconsistentNaming_of_words⟩
  exact judgesFairly_of_separate distinct (separate_of_unambiguous plain)

/-- One group of each name. -/
def groupsNamed (names : List Text) : Definitions :=
  names.map fun name => (name, [{ functionality := name, filePath := "a.js", lines := [1] }])

/-- Names of two conventions, in which no name follows both, and three words. -/
theorem judgesFairly_iff_mixed :
    JudgesFairly (groupsNamed ["userLogin", "userLogout", "dataLoad", "user_login", "user_logout",
        "data_load"]) ∧
      Consistent (Entries.keys (groupsNamed ["login", "logout", "search"])) ∧
      inconsistentNaming (groupsNamed ["login", "logout", "search"]) ≠ [] :=
  ⟨(judgesFairly_iff (by decide)).2.1 (by decide), (judgesFairly_iff (by decide)).2.2 (by decide)
    (by decide)⟩

/-- **The check is not always right.**  Three names that follow one convention are listed three times
over. -/
theorem not_judgesFairly_words :
    (Entries.keys (groupsNamed ["login", "logout", "search"])).Nodup ∧
      Consistent (Entries.keys (groupsNamed ["login", "logout", "search"])) ∧
      ¬JudgesFairly (groupsNamed ["login", "logout", "search"]) ∧
      (inconsistentNaming (groupsNamed ["login", "logout", "search"])).map (·.affected) =
        [["login".toList, "logout", "search", "login", "logout", "search", "login", "logout",
          "search"]] := by
  have words : ∀ name ∈ Entries.keys (groupsNamed ["login", "logout", "search"]),
      isWord name = true := by decide
  obtain ⟨consistent, issue⟩ := inconsistentNaming_of_words words (by decide)
  exact ⟨by decide, consistent, fun fair => issue (fair.quiet consistent), by decide⟩

end CodeAtlas.Review
